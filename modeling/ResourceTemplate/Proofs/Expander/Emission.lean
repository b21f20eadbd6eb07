import ResourceTemplate.Proofs.Deployment.Standing
import ResourceTemplate.Proofs.Expander.Blocks
import ResourceTemplate.Proofs.Redaction.Spared

namespace ResourceTemplate

/-- The members of a declaration that are evaluated: those of its body, without an inline template. -/
def ResourceDeclaration.ownMembers (decl : ResourceDeclaration) : Entries Json :=
  (if Expander.isDeployment decl then Expander.takeTemplate decl.body else (decl.body, none)).1

namespace Expander

variable {x : Expander} {depth : Nat} {run : Run x depth} {n : Nat} {decl : ResourceDeclaration} {r : ResourceValue}
  {inner : Option ExpandedDeployment}

/-- How a run comes to emit a resource, and what is nested in it. From a scope to which evaluation leads from some
progress of the run, the members of the declaration are evaluated to a body, which is completed by what is nested;
the resource is made of it with the secrets replaced that are known in the end. -/
structure Emission (run : Run x depth) (decl : ResourceDeclaration) (r : ResourceValue)
    (inner : Option ExpandedDeployment) where
  before : History
  progress : Progress
  scope : Scope
  body : Entries Json
  after : Scope
  full : Entries Json
  last : Scope
  reached : Reached x (x.nestedAt depth) run.deployment run.plan run.start before progress
  leads : run.deployment.LeadsTo progress.scope scope
  evaluates : outcome (run.deployment.evalObject progress.ledger decl.pointer decl.ownMembers) scope = (.ok body, after)
  exposes : outcome (x.exposed (x.nestedAt depth) run.deployment progress.ledger decl) scope =
    (.ok (r.identity, full, inner), last)
  ends : run.deployment.LeadsTo scope last
  made : r.body = ResourceValue.makeBody r.identity
    (x.redact run.deployment.options.keepSecretProperties last.secure r.identity.type full).1 r.dependsOn

theorem Run.exists_emission (h : run.history.Begins n decl (.emitted r inner)) : Nonempty (Emission run decl r inner) := by
  obtain ⟨before, after, first, last, hh, -⟩ := h
  obtain ⟨p, m, hp, -, -, ht⟩ := run.reached.split hh
  cases ht with
  | commits instances s _ _ ha _ =>
    obtain ⟨index, t, u, hpt, htu, hactive⟩ := attempt_emitted ha (List.mem_append_right _ List.mem_cons_self)
    obtain ⟨full, hx, hids, hbody⟩ := expandActive_emitted hactive
    obtain ⟨body, t', hb, -⟩ := outcome_bind_eq_ok.mp hx
    exact ⟨before, p, t, body, t', full, u, hp, hpt, hb, hx, htu, hids ▸ hbody⟩

namespace Emission

variable (E : Emission run decl r inner)

/-- A string stands at a place of the body that the declaration is evaluated to. -/
def StandsAt (pointer w : String) (place : PropertyPath) : Prop :=
  run.deployment.StandsAt E.progress.ledger E.scope decl.pointer decl.ownMembers pointer w place

def templated : Entries Json := withInline E.body (if isDeployment decl then (takeTemplate decl.body).2 else none)

/-- The scopes of an emission are faithful to what is supplied if that of the run is. -/
theorem faithful (h : run.deployment.Faithful run.scope) :
    run.deployment.Faithful E.scope ∧ run.deployment.Faithful E.last := by
  have hscope := E.leads.faithful ((run.leads E.reached).faithful h)
  exact ⟨hscope, E.ends.faithful hscope⟩

/-- What is put into the body: the inline template of a deployment, if any, and the outputs of what its template expands
to if it can be had. -/
theorem completed : (inner = none ∧ E.full = E.templated ∧ (isDeployment decl = true →
      ∃ reason, x.availableTemplate E.templated (takeTemplate decl.body).2 = .error reason)) ∨
    ∃ e, inner = some e ∧ isDeployment decl = true ∧
      E.full = setProperty E.templated "outputs" (outputsJson e.outputs) ∧
      x.Nests (x.nestedAt depth) run.deployment r.identity E.templated (takeTemplate decl.body).2 e := by
  have hb := E.evaluates
  have hx := E.exposes
  unfold ResourceDeclaration.ownMembers at hb
  unfold exposed at hx
  unfold templated
  cases hd : isDeployment decl with
  | false =>
    simp only [hd, Bool.false_eq_true, if_false] at hb hx
    obtain ⟨body, t, hbody, hx⟩ := outcome_bind_eq_ok.mp hx
    rw [hb] at hbody
    cases hbody
    obtain ⟨identity, u, hi, hx⟩ := outcome_bind_eq_ok.mp hx
    obtain ⟨-, hx⟩ := Prod.mk.inj (Except.ok.inj (Prod.mk.inj hx).1)
    obtain ⟨hfull, hinner⟩ := Prod.mk.inj hx
    exact .inl ⟨hinner.symm, hfull.symm, nofun⟩
  | true =>
    simp only [hd, if_true] at hb hx
    obtain ⟨body, t, hbody, hx⟩ := outcome_bind_eq_ok.mp hx
    rw [hb] at hbody
    cases hbody
    obtain ⟨identity, u, hi, hx⟩ := outcome_bind_eq_ok.mp hx
    obtain ⟨y, v, hn, hx⟩ := outcome_bind_eq_ok.mp hx
    obtain ⟨hi, hx⟩ := Prod.mk.inj (Except.ok.inj (Prod.mk.inj hx).1)
    obtain ⟨hfull, hinner⟩ := Prod.mk.inj hx
    rw [hi, (Prod.ext hfull hinner : y = (E.full, inner))] at hn
    rcases expandNested_ok hn with ⟨hinner, hfull, hnone⟩ | ⟨e, hinner, hfull, hnests⟩
    · exact .inl ⟨hinner, hfull, fun _ => hfull ▸ hnone⟩
    · exact .inr ⟨e, hinner, rfl, hfull, hnests⟩

/-- A deployment resource with an inline template has a deployment nested in it. -/
theorem isSome_inner (E : Emission run decl r inner) (hd : isDeployment decl = true)
    (ht : (takeTemplate decl.body).2.isSome = true) : inner.isSome = true := by
  rcases E.completed with ⟨-, -, hnone⟩ | ⟨e, rfl, -⟩
  · obtain ⟨template, ht⟩ := Option.isSome_iff_exists.mp ht
    obtain ⟨reason, hr⟩ := hnone hd
    rw [ht] at hr
    cases hr
  · rfl

end Emission

/-- Whether a place under a key of a body is not the expansion's to set: it is no part of what tells the resource, and of
the properties of a deployment it is in neither the inline template nor the outputs of what the template expands to. -/
structure Spares (decl : ResourceDeclaration) (inner : Option ExpandedDeployment) (key : String) (place : PropertyPath) :
    Prop where
  reserved : ResourceValue.isReserved key = false
  name : Name.same key "name" = false
  type : Name.same key "type" = false
  nested : isDeployment decl = true → key = "properties" → ∃ property rest, place = .key property :: rest ∧
    ((takeTemplate decl.body).2.isSome = true → property ≠ "template") ∧ (inner.isSome = true → property ≠ "outputs")

theorem at?_setProperty_self (body : Entries Json) (name : String) (v : Json) (place : PropertyPath) :
    (Json.obj (setProperty body name v)).at? (.key "properties" :: .key name :: place) = v.at? place := by
  change ((setProperty body name v).get? "properties").bind (Json.at? (.key name :: place)) = _
  unfold setProperty
  rw [Entries.get?_insert, if_pos rfl]
  change (((propertiesOf body).insert name v).get? name).bind (Json.at? place) = _
  rw [Entries.get?_insert, if_pos rfl]
  rfl

theorem at?_setProperty {body : Entries Json} {name key : String} {v w : Json} {place : PropertyPath}
    (h : (Json.obj body).at? (.key key :: place) = some w)
    (hk : key = "properties" → ∃ property rest, place = .key property :: rest ∧ property ≠ name) :
    (Json.obj (setProperty body name v)).at? (.key key :: place) = some w := by
  obtain ⟨u, hu, hat⟩ := Option.bind_eq_some_iff.mp h
  refine Option.bind_eq_some_iff.mpr ?_
  unfold setProperty
  rw [Entries.get?_insert]
  split
  · rename_i hproperties
    obtain ⟨property, rest, rfl, hne⟩ := hk hproperties
    obtain ⟨properties, y, rfl, hy, hat⟩ := Json.at?_key.mp hat
    have hof : propertiesOf body = properties := by
      unfold propertiesOf
      rw [← hproperties, hu]
    refine ⟨_, rfl, Option.bind_eq_some_iff.mpr ⟨y, ?_, hat⟩⟩
    rw [Entries.get?_insert, if_neg hne, hof, hy]
  · exact ⟨u, hu, hat⟩

theorem redactSecure_nil (body : Entries Json) : (redactSecure [] body).1 = body := by
  induction body with
  | nil => rfl
  | cons e body ih =>
    rw [redactSecure_cons, ih, Redaction.ofValue_nil, ite_self]

namespace Emission

variable (E : Emission run decl r inner)

theorem at?_full {key : String} {place : PropertyPath} {w : Json} (hs : Spares decl inner key place)
    (h : (Json.obj E.body).at? (.key key :: place) = some w) :
    (Json.obj E.full).at? (.key key :: place) = some w := by
  have htemplated : (Json.obj E.templated).at? (.key key :: place) = some w := by
    unfold templated
    cases hd : isDeployment decl with
    | false => exact h
    | true =>
      cases hi : (takeTemplate decl.body).2 with
      | none => exact h
      | some template =>
        refine at?_setProperty h fun hk => ?_
        obtain ⟨property, rest, hp, htemplate, -⟩ := hs.nested hd hk
        exact ⟨property, rest, hp, htemplate (by rw [hi]; rfl)⟩
  rcases E.completed with ⟨-, hf, -⟩ | ⟨e, rfl, hd, hf, -⟩
  · exact hf ▸ htemplated
  · rw [hf]
    refine at?_setProperty htemplated fun hk => ?_
    obtain ⟨property, rest, hp, -, houtputs⟩ := hs.nested hd hk
    exact ⟨property, rest, hp, houtputs rfl⟩

/-- A string of the completed body is in the emitted resource, at a place that is not that of a secret, where no
parameter is secure. -/
theorem at?_resource (hf : run.deployment.Faithful run.scope)
    (hplain : ∀ p ∈ run.deployment.template.parameters, p.type.isSecure = false) {key : String} {place : PropertyPath}
    {s : String} (hreserved : ResourceValue.isReserved key = false) (hname : Name.same key "name" = false)
    (htype : Name.same key "type" = false) (hr : x.secrets.registers r.identity.type (.key key :: place) = false)
    (h : (Json.obj E.full).at? (.key key :: place) = some (.str s)) :
    (Json.obj r.body).at? (.key key :: place) = some (.str s) := by
  have hsecure := (E.faithful hf).2.plain hplain
  have hnodup : E.full.keys.Nodup := yields_exposed decl _ _ _ E.exposes
  have hredact : (x.redact run.deployment.options.keepSecretProperties E.last.secure r.identity.type E.full).1 =
      (x.secrets.redact r.identity.type run.deployment.options.keepSecretProperties E.full).1 := by
    unfold redact
    rw [hsecure]
    cases run.deployment.options.keepSecretProperties with
    | true => rfl
    | false =>
      dsimp only
      rw [if_neg Bool.false_ne_true, redactSecure_nil]
  rw [E.made, hredact]
  have hkeys := (x.secrets.redact_covers r.identity.type run.deployment.options.keepSecretProperties E.full).keys
  exact ResourceValue.at?_makeBody (hkeys ▸ hnodup) (SecretRegistry.at?_redact hr _ h) hreserved hname htype

/-- An output of a nested deployment that is a string is among the outputs of its resource. -/
theorem at?_outputs {e : ExpandedDeployment} (E : Emission run decl r (some e)) {name : String} {v : Json}
    (h : e.outputs.get? name = some v) :
    (Json.obj E.full).at? [.key "properties", .key "outputs", .key name, .key "value"] = some v := by
  rcases E.completed with ⟨hnone, -⟩ | ⟨e', he, -, hf, -⟩
  · cases hnone
  · cases he
    let entry (v : Json) : Json := .obj [("type", .str (outputKind v)), ("value", v)]
    have hget : (outputsJson e.outputs).at? [.key name, .key "value"] = some v :=
      Json.at?_key.mpr ⟨_, entry v, rfl, (Entries.get?_map entry e.outputs name).trans (congrArg _ h), rfl⟩
    rw [hf, at?_setProperty_self]
    exact hget

end Emission
end Expander
end ResourceTemplate
