import ResourceTemplate.Proofs.Expander.References
import ResourceTemplate.Proofs.Expander.Run
import ResourceTemplate.Proofs.Expander.Secrets
import ResourceTemplate.Proofs.Outcome

namespace ResourceTemplate

/-! Members that are selected by a literal name. -/

namespace Expr

variable {σ : Type} {h : Host σ} {scopes : Scopes} {e f : Expr} {name : String} {s t : σ}

inductive Selects (e : Expr) (name : String) : Expr → Prop where
  | property (span : Span) : Selects e name (.property e name span)
  | index (span : Span) : Selects e name (.index e (.str name) span)

theorem propertyOf_obj {es : Entries Json} :
    propertyOf (.obj es) name =
      match es.getNamed? name with
      | some v => .ok v
      | none => .error (.missingProperty name) := rfl

theorem Selects.outcome_eval (hs : Selects e name f) {es : Entries Json}
    (he : outcome (eval h scopes e) s = (.ok (.obj es), t)) :
    outcome (eval h scopes f) s = (propertyOf (.obj es) name, t) := by
  cases hs with
  | property span =>
    change outcome (eval h scopes e >>= fun v => Host.lift (propertyOf v name)) s = _
    rw [outcome_bind, he]
    rfl
  | index span =>
    change outcome (eval h scopes e >>= fun v => Host.lift (elementOf v (.str name))) s = _
    rw [outcome_bind, he]
    rfl

end Expr

theorem Catalog.lookup?_reference {σ : Type} {f : String} (hf : Name.same f "reference" = true) :
    lookup? σ f = some (.asking Surroundings.reference) :=
  (lookup?_congr hf).trans rfl

theorem Expr.outcome_reference {σ : Type} {h : Host σ} {scopes : Scopes} {f target : String}
    {a : Expr} {span : Span} {s t : σ} (hf : Name.same f "reference" = true)
    (ha : outcome (eval h scopes a) s = (.ok (.str target), t)) :
    outcome (eval h scopes (.call none f [a] span)) s = outcome (h.reference target false) t := by
  rw [outcome_call_asking (Catalog.lookup?_reference hf) (outcome_values_singleton ha)]
  rfl

/-- Whether an expression reads the value of an output of the deployment that another names:
`reference(target).outputs.name.value`. -/
def Expr.ReadsOutput (target : Expr) (name : String) (e : Expr) : Prop :=
  ∃ function span outputs output, Name.same function "reference" = true ∧
    Selects (.call none function [target] span) "outputs" outputs ∧
    Selects outputs name output ∧ Selects output "value" e

/-- A target that is no symbol leads to the resource that it means, if it means no other. -/
theorem Ledger.find_of_meant {l : Ledger} {target : String} {r : ResourceValue}
    (hs : l.symbols.contains (addressed target) = false) (hr : r ∈ l.allResources)
    (hm : isMeant r.identity.id r.identity.name target = true)
    (hone : ∀ r' ∈ l.allResources, isMeant r'.identity.id r'.identity.name target = true → r' = r) :
    l.find target = .ok (.found r) := by
  rw [find_eq, hs]
  unfold findByIdOrName
  cases hf : l.allResources.find? fun r => isMeant r.identity.id r.identity.name target with
  | none =>
    rw [List.find?_eq_none] at hf
    exact absurd hm (hf r hr)
  | some r' =>
    have hm' := List.find?_some hf
    rw [hone r' (List.mem_of_find?_eq_some hf) hm']
    rfl

/-! Outputs in the body of a deployment resource. -/

namespace Expander

variable {x : Expander} {nested : Nested} {d : Deployment} {l : Ledger} {plan : Plan}
  {p₀ : Progress}

/-- An output as a resource shows it: a value that is null is left out, and so are null members. -/
def shownOutput (v : Json) : Json :=
  .obj (("type", .str (outputKind v)) :: if v.isNull then [] else [("value", trimValue v)])

theorem trimValue_output (v : Json) :
    trimValue (.obj [("type", .str (outputKind v)), ("value", v)]) = shownOutput v := by
  unfold shownOutput
  cases v <;> rfl

def shownOutputs (outputs : Entries Json) : Entries Json :=
  outputs.map fun o => (o.1, shownOutput o.2)

theorem trimValue_outputsJson (outputs : Entries Json) :
    trimValue (outputsJson outputs) = .obj (shownOutputs outputs) := by
  refine congrArg Json.obj ?_
  induction outputs with
  | nil => rfl
  | cons o outputs ih =>
    rw [List.map_cons, trimNulls, if_neg (by simp [Json.isNull]), trimValue_output, ih]
    rfl

theorem get?_shownOutputs (outputs : Entries Json) (name : String) :
    (shownOutputs outputs).get? name = (outputs.get? name).map shownOutput :=
  Entries.get?_map shownOutput outputs name

theorem keys_shownOutputs (outputs : Entries Json) : (shownOutputs outputs).keys = outputs.keys := by
  unfold shownOutputs Entries.keys
  rw [List.map_map]
  rfl

def Shows (r : ResourceValue) (outputs : Entries Json) : Prop :=
  ∃ properties, r.properties = .obj properties ∧
    Entries.get? properties "outputs" = some (.obj (shownOutputs outputs))

/-- What the property `value` of a shown output is. -/
theorem propertyOf_shownOutput {v : Json} {es : Entries Json} (h : shownOutput v = .obj es) :
    Expr.propertyOf (.obj es) "value" =
      if v.isNull then .error (.missingProperty "value") else .ok (trimValue v) := by
  cases h
  have htype : Name.same "type" "value" = false := by decide
  cases hn : v.isNull <;> simp [Expr.propertyOf_obj, Entries.getNamed?, Entries.get?_cons, htype]

/-- An output of a resource that shows it is read without its null members. -/
theorem Shows.outcome_eval {r : ResourceValue} {outputs : Entries Json} (hs : Shows r outputs)
    {name : String} {v : Json} (hv : outputs.get? name = some v) {target : String}
    (hf : l.find target = .ok (.found r)) {scopes : Expr.Scopes} {a f : Expr} {s t : Scope}
    (ha : outcome (Expr.eval (d.host l) scopes a) s = (.ok (.str target), t))
    (hr : Expr.ReadsOutput a name f) :
    outcome (Expr.eval (d.host l) scopes f) s =
      (if v.isNull then .error (.missingProperty "value") else .ok (trimValue v), t) := by
  obtain ⟨function, span, all, one, hfn, hall, hone, hvalue⟩ := hr
  obtain ⟨properties, hp, ho⟩ := hs
  have hcall : outcome (Expr.eval (d.host l) scopes (.call none function [a] span)) s =
      (.ok (.obj properties), t) := by
    rw [Expr.outcome_reference hfn ha]
    refine Eq.trans (outcome_resolve_found hf _ t) ?_
    exact congrArg (fun w => (Except.ok w, t)) hp
  have houtputs := hall.outcome_eval hcall
  rw [Expr.propertyOf_obj, Entries.getNamed?_of_get? ho] at houtputs
  have hget := get?_shownOutputs outputs name
  rw [hv] at hget
  have houtput := hone.outcome_eval houtputs
  rw [Expr.propertyOf_obj, Entries.getNamed?_of_get? hget] at houtput
  rw [hvalue.outcome_eval houtput, propertyOf_shownOutput rfl]

/-- What a nested template expands to is entered among the properties, with its outputs. -/
theorem yields_expandNested_outputs (decl : ResourceDeclaration) (identity : ResourceIdentity)
    (body : Entries Json) (inline : Option Json) :
    Yields (x.expandNested nested d decl identity body inline) fun y => ∀ e, y.2 = some e →
      ∃ body', y.1 = setProperty body' "outputs" (outputsJson e.outputs) := by
  unfold expandNested
  refine .after fun template => ?_
  cases template with
  | none => exact .pure (by simp)
  | some v =>
    refine .bind (Q := fun y => ∃ body', y.1 = setProperty body' "outputs" (outputsJson y.2.outputs))
      ?_ fun y hy => .pure ?_
    · exact .after fun t => .after fun e => .pure ⟨_, rfl⟩
    · rintro e ⟨⟩
      exact hy

theorem yields_exposed_outputs (decl : ResourceDeclaration) :
    Yields (x.exposed nested d l decl) fun y => ∀ e, y.2.2 = some e →
      ∃ body', y.2.1 = setProperty body' "outputs" (outputsJson e.outputs) := by
  unfold exposed
  dsimp only
  refine .after fun body => .after fun identity => ?_
  split
  · exact .bind (yields_expandNested_outputs decl identity _ _) fun y hy => .pure hy
  · refine .bind (.pure rfl : Yields _ fun y => y = (body, none)) fun y hy => .pure ?_
    simp [hy]

/-- The resource of a body whose properties have outputs shows them. -/
theorem shows_make {r : ResourceValue} {identity : ResourceIdentity} {body : Entries Json}
    {dependsOn : List String} {outputs : Entries Json}
    (hn : (setProperty body "outputs" (outputsJson outputs)).keys.Nodup)
    (hr : r.body = ResourceValue.makeBody identity
      (setProperty body "outputs" (outputsJson outputs)) dependsOn) : Shows r outputs := by
  have hproperties : Entries.get? (setProperty body "outputs" (outputsJson outputs)) "properties" =
      some (.obj ((propertiesOf body).insert "outputs" (outputsJson outputs))) := by
    unfold setProperty
    rw [Entries.get?_insert, if_pos rfl]
  have houtputs : Entries.get? ((propertiesOf body).insert "outputs" (outputsJson outputs))
      "outputs" = some (outputsJson outputs) := by
    rw [Entries.get?_insert, if_pos rfl]
  have hmake : Entries.get? r.body "properties" =
      some (trimValue (.obj ((propertiesOf body).insert "outputs" (outputsJson outputs)))) := by
    rw [hr]
    exact ResourceValue.get?_makeBody hn hproperties rfl (by decide) (by decide) (by decide)
  refine ⟨trimNulls ((propertiesOf body).insert "outputs" (outputsJson outputs)), ?_, ?_⟩
  · unfold ResourceValue.properties
    rw [hmake]
    rfl
  · rw [get?_trimNulls houtputs rfl, trimValue_outputsJson]

/-- A deployment resource of an attempt that keeps its secrets shows the outputs of what its template
expands to. -/
theorem attempt_shows {decl : ResourceDeclaration} {p : Progress} {instances : List Instance}
    {s : Scope} (h : x.attempt nested d plan decl p = (.ok instances, s))
    (hk : d.options.keepSecretProperties = true) {r : ResourceValue} {e : ExpandedDeployment}
    (hi : .emitted r (some e) ∈ instances) : Shows r e.outputs := by
  obtain ⟨index, t, u, -, -, hactive⟩ := attempt_emitted h hi
  obtain ⟨body, hx, -, hr⟩ := expandActive_emitted hactive
  obtain ⟨body', rfl⟩ := yields_exposed_outputs decl _ _ _ hx e rfl
  have hnodup := yields_exposed decl _ _ _ hx
  rw [hk] at hr
  exact shows_make hnodup hr

theorem Reached.attempted {h : History} {p : Progress} {decl : ResourceDeclaration}
    {instances : List Instance} (hr : Reached x nested d plan p₀ h p)
    (hc : .committed decl instances ∈ h) :
    ∃ q s, x.attempt nested d plan decl q = (.ok instances, s) := by
  obtain ⟨before, after, hh⟩ := List.append_of_mem hc
  obtain ⟨q, _, -, -, -, hturn⟩ := hr.split hh
  cases hturn with
  | commits _ s _ _ ha _ => exact ⟨q, s, ha⟩

/-! The outputs of a deployment are evaluated in turn. -/

def outputIn (d : Deployment) (l : Ledger) (o : OutputDefinition) (s : Scope) : Option Json :=
  (outcome (evalOutput d l ("/outputs/" ++ o.name) o) s).1.toOption.join

/-- An output is entered if it gives a value, and its failure is reported if it fails; then come the others. -/
theorem evalOutputs_next {acc outputs : Entries Json} {o : OutputDefinition} {os : List OutputDefinition}
    {p q : Progress} {s : Scope} (hs : s = (outcome (evalOutput d p.ledger ("/outputs/" ++ o.name) o) p.scope).2)
    (h : outcome (evalOutputs d acc (o :: os)) p = (.ok outputs, q)) :
    ∃ p', p'.ledger = p.ledger ∧ (p'.scope = s ∨ ∃ pointer x, p'.scope = s.report d.identity.name pointer x) ∧
      outcome (evalOutputs d ((outputIn d p.ledger o p.scope).elim acc (acc.insert o.name)) os) p' =
        (.ok outputs, q) := by
  subst hs
  unfold evalOutputs at h
  simp only [outcome_bind, outcome_get, ExpandM.outcome_attempt, ExpandM.outcome_onScope] at h
  unfold outputIn
  split at h
  · rename_i v hv
    rw [hv]
    refine ⟨_, ?_, .inl ?_, h⟩
    · rfl
    · rfl
  · rename_i hv
    rw [hv]
    refine ⟨_, ?_, .inl ?_, h⟩
    · rfl
    · rfl
  · rename_i e he
    rw [he]
    split at h
    · cases h
    · simp only [outcome_bind, outcome_modify] at h
      refine ⟨_, ?_, .inr ⟨"/outputs/" ++ o.name,
        .error .outputFailed (ExpansionFailure.text ⟨d.identity.name, .output o.name, e⟩), ?_⟩, h⟩
      · rfl
      · rfl

theorem evalOutputs_cons {acc outputs : Entries Json} {o : OutputDefinition} {os : List OutputDefinition}
    {p q : Progress} (h : outcome (evalOutputs d acc (o :: os)) p = (.ok outputs, q)) :
    ∃ p', p'.ledger = p.ledger ∧ d.LeadsTo p.scope p'.scope ∧
      outcome (evalOutputs d ((outputIn d p.ledger o p.scope).elim acc (acc.insert o.name)) os) p' =
        (.ok outputs, q) := by
  have hl := d.steady_leadsTo
  have hs := obeys_evalOutput (hl.obeys p.ledger).evalObeys ("/outputs/" ++ o.name) o p.scope
  obtain ⟨p', hledger, hscope, h⟩ := evalOutputs_next rfl h
  refine ⟨p', hledger, ?_, h⟩
  rcases hscope with hscope | ⟨_, _, hscope⟩
  · rw [hscope]
    exact hs
  · rw [hscope]
    exact hl.trans _ _ _ hs (hl.report _ _ _ _)

theorem get?_entered {acc : Entries Json} {name key : String} {given : Option Json} {v : Json}
    (h : Entries.get? (given.elim acc (acc.insert name)) key = some v) :
    acc.get? key = some v ∨ name = key ∧ given = some v := by
  cases given with
  | none => exact .inl h
  | some w =>
    rw [Option.elim_some, Entries.get?_insert] at h
    split at h
    · rename_i hkey
      exact .inr ⟨hkey.symm, h⟩
    · exact .inl h

/-- Every output that is not from before is what a declaration of its name gives. -/
theorem evalOutputs_get? {acc outputs : Entries Json} {os : List OutputDefinition} {p q : Progress}
    (h : outcome (evalOutputs d acc os) p = (.ok outputs, q)) {name : String} {v : Json}
    (hv : outputs.get? name = some v) :
    acc.get? name = some v ∨
      ∃ o ∈ os, o.name = name ∧ ∃ s, d.LeadsTo p.scope s ∧ outputIn d p.ledger o s = some v := by
  induction os generalizing acc p with
  | nil =>
    cases h
    exact .inl hv
  | cons o os ih =>
    obtain ⟨p', hledger, hl, h⟩ := evalOutputs_cons h
    rcases ih h with hacc | ⟨o', ho', hname, s, hs, hgives⟩
    · rcases get?_entered hacc with hacc | ⟨hname, hgives⟩
      · exact .inl hacc
      · exact .inr ⟨o, List.mem_cons_self, hname, p.scope, d.steady_leadsTo.refl _, hgives⟩
    · exact .inr ⟨o', List.mem_cons_of_mem _ ho', hname, s, d.steady_leadsTo.trans _ _ _ hl hs, hledger ▸ hgives⟩

/-- An output is given if its declaration gives a value wherever evaluation leads, or if there is one from before. -/
theorem isSome_evalOutputs {acc outputs : Entries Json} {os : List OutputDefinition} {p q : Progress}
    (h : outcome (evalOutputs d acc os) p = (.ok outputs, q)) {name : String}
    (hgives : (acc.get? name).isSome = true ∨ ∃ o ∈ os, o.name = name ∧
      ∀ s, d.LeadsTo p.scope s → (outputIn d p.ledger o s).isSome = true) :
    (outputs.get? name).isSome = true := by
  induction os generalizing acc p with
  | nil =>
    cases h
    exact hgives.resolve_right (by simp)
  | cons o os ih =>
    obtain ⟨p', hledger, hl, h⟩ := evalOutputs_cons h
    refine ih h ?_
    rcases hgives with hacc | ⟨o', ho', rfl, hgives⟩
    · left
      cases outputIn d p.ledger o p.scope with
      | none => exact hacc
      | some w =>
        rw [Option.elim_some, Entries.get?_insert]
        split
        · rfl
        · exact hacc
    · rcases List.mem_cons.mp ho' with rfl | ho'
      · left
        obtain ⟨w, hw⟩ := Option.isSome_iff_exists.mp (hgives _ (d.steady_leadsTo.refl _))
        rw [hw, Option.elim_some, Entries.get?_insert, if_pos rfl]
        rfl
      · exact .inr ⟨o', ho', rfl, fun s hs => hledger ▸ hgives s (d.steady_leadsTo.trans _ _ _ hl hs)⟩

theorem evalOutputs_keys {acc outputs : Entries Json} {os : List OutputDefinition} {p q : Progress}
    (hn : acc.keys.Nodup) (h : outcome (evalOutputs d acc os) p = (.ok outputs, q)) :
    outputs.keys.Nodup := by
  induction os generalizing acc p with
  | nil =>
    cases h
    exact hn
  | cons o os ih =>
    obtain ⟨p', -, -, h⟩ := evalOutputs_cons h
    refine ih ?_ h
    cases outputIn d p.ledger o p.scope with
    | none => exact hn
    | some v => exact Entries.nodup_insert hn _ _

theorem expandWith_keys {t : Template} {identity : DeploymentIdentity} {values : Entries Json}
    {log log' : List Diagnostic} {e : ExpandedDeployment}
    (h : x.expandWith nested t identity values log = (.ok e, log')) : e.outputs.keys.Nodup := by
  obtain ⟨d, s, outputs, p, -, hr, rfl, -⟩ := expandWith_ok h
  rw [run_eq_prepare] at hr
  obtain ⟨plan, p₀, -, hr⟩ := outcome_bind_eq_ok.mp hr
  obtain ⟨_, q, -, hr⟩ := outcome_bind_eq_ok.mp hr
  have hnil : Entries.keys ([] : Entries Json) = [] := rfl
  exact evalOutputs_keys (hnil ▸ List.nodup_nil) hr

/-- What expands below a deployment has outputs of distinct names. -/
theorem nestedAt_keys {depth : Nat} {e : ExpandedDeployment} (h : Expands (x.nestedAt depth) e) :
    e.outputs.keys.Nodup := by
  obtain ⟨v, t, identity, values, log, log', -, he⟩ := h
  cases depth with
  | zero => cases he
  | succ depth =>
    rw [nestedAt, expandAt_eq] at he
    exact expandWith_keys he

/-- Once a deployment resource that keeps its secrets is committed, it has one entry for each output of
what its template expands to. A reference to it reads the value of an output without its null members, and
as it is if it has none; an output that is null has no value to read. -/
theorem Reached.reads_outputs {depth : Nat} {h : History} {p : Progress}
    {decl : ResourceDeclaration} {instances : List Instance} {r : ResourceValue}
    {e : ExpandedDeployment} (hr : Reached x (x.nestedAt depth) d plan p₀ h p)
    (hc : .committed decl instances ∈ h) (hi : .emitted r (some e) ∈ instances)
    (hk : d.options.keepSecretProperties = true) :
    (∃ properties outputs, r.properties = .obj properties ∧
      Entries.get? properties "outputs" = some (.obj outputs) ∧
      Entries.keys outputs = e.outputs.keys) ∧
    e.outputs.keys.Nodup ∧
    ∀ name v, (name, v) ∈ e.outputs → (v.hasNullMember = false → trimValue v = v) ∧
      ∀ target, p.ledger.find target = .ok (.found r) → ∀ scopes a f s t,
        outcome (Expr.eval (d.host p.ledger) scopes a) s = (.ok (.str target), t) →
        Expr.ReadsOutput a name f →
        outcome (Expr.eval (d.host p.ledger) scopes f) s =
          (if v.isNull then .error (.missingProperty "value") else .ok (trimValue v), t) := by
  obtain ⟨q, s, ha⟩ := hr.attempted hc
  have hshows : Shows r e.outputs := attempt_shows ha hk hi
  have hnodup : e.outputs.keys.Nodup :=
    nestedAt_keys ((yields_expandInstances decl _ _ _ ha _ hi).inner e rfl)
  refine ⟨?_, hnodup, ?_⟩
  · obtain ⟨properties, hp, ho⟩ := hshows
    exact ⟨properties, _, hp, ho, keys_shownOutputs e.outputs⟩
  · intro name v hv
    refine ⟨trimValue_of_hasNullMember v, ?_⟩
    intro target hf scopes a f s t ha hf'
    exact hshows.outcome_eval (Entries.get?_of_mem hnodup hv) hf ha hf'

def keeping : Expander := { small with options := { small.options with keepSecretProperties := true } }

/-- A nested deployment with an output that is null, one with a null member and one without. -/
def deploying : Json := .obj
  [("resources", .arr
    [.obj [("type", .str ResourceId.deploymentType), ("name", .str "inner"),
      ("properties", .obj
        [("template", .obj
          [("outputs", .obj
            [("n", .obj [("type", .str "string"), ("value", .null)]),
             ("o", .obj [("type", .str "object"), ("value", .obj [("a", .null)])]),
             ("s", .obj [("type", .str "string"), ("value", .str "x")])])])])]])]

def deployed : Entries Json := [("n", .null), ("o", .obj [("a", .null)]), ("s", .str "x")]

def isDeployed : Entries Json → Bool
  | [("n", .null), ("o", .obj [("a", .null)]), ("s", .str "x")] => true
  | _ => false

theorem eq_deployed {outputs : Entries Json} (h : isDeployed outputs = true) :
    outputs = deployed := by
  unfold isDeployed at h
  split at h
  · rfl
  · cases h

def deployment? : List Instance → Option (ResourceValue × ExpandedDeployment)
  | [.emitted r (some e)] => some (r, e)
  | _ => none

theorem deployment?_eq_some {instances : List Instance} {r : ResourceValue}
    {e : ExpandedDeployment} (h : deployment? instances = some (r, e)) :
    instances = [.emitted r (some e)] := by
  unfold deployment? at h
  split at h
  · cases h
    rfl
  · cases h

/-- The expression `reference('inner').outputs.name.value`. -/
def readInner (name : String) : Expr :=
  .property (.property (.property (.call none "reference" [.str "inner"] default) "outputs" default)
    name default) "value" default

theorem readsOutput_readInner (name : String) : Expr.ReadsOutput (.str "inner") name (readInner name) :=
  ⟨"reference", default, _, _, by decide, .property _, .property _, .property _⟩

def commitsDeployed : Bool :=
  (firstCommit? keeping (keeping.nestedAt 1) deploying).any fun (d, _, _, _, instances, p) =>
    (deployment? instances).any fun (r, e) =>
      d.options.keepSecretProperties && isDeployed e.outputs &&
        Ledger.isMeant r.identity.id r.identity.name "inner" &&
        !p.ledger.symbols.contains (Ledger.addressed "inner")

theorem exists_deploying : ∃ d plan p₀ decl r e p,
    Template.ofJson deploying = .ok d.template ∧
    outcome (prepare d) (.start {} d.template.resources) = (.ok plan, p₀) ∧
    Reached keeping (keeping.nestedAt 1) d plan p₀ [.committed decl [.emitted r (some e)]] p ∧
    d.options.keepSecretProperties = true ∧ e.outputs = deployed ∧
    p.ledger.find "inner" = .ok (.found r) := by
  have hc : commitsDeployed = true := by decide +kernel
  obtain ⟨⟨d, plan, p₀, decl, instances, p⟩, hf, hc⟩ := (Option.any_eq_true _ _).mp hc
  obtain ⟨ht, h₀, -, hr⟩ := firstCommit?_eq_some hf
  obtain ⟨⟨r, e⟩, hi, hc⟩ := (Option.any_eq_true _ _).mp hc
  simp only [Bool.and_eq_true, Bool.not_eq_true'] at hc
  obtain ⟨⟨⟨hk, ho⟩, hm⟩, hs⟩ := hc
  rw [deployment?_eq_some hi] at hr
  have hu := (prepare_ok (Template.ofJson_numbered ht) h₀).1
  have hall : p.ledger.allResources = [r] := by
    unfold Ledger.allResources
    rw [(hr.recorded hu).resources, (hr.recorded hu).existing]
    rfl
  refine ⟨d, plan, p₀, decl, r, e, p, ht, h₀, hr, hk, eq_deployed ho, ?_⟩
  exact Ledger.find_of_meant hs (by simp [hall]) hm (by simp [hall])

theorem Reached.reads_outputs_deploying :
    ∃ d plan p₀ decl r e p,
      Reached keeping (keeping.nestedAt 1) d plan p₀ [.committed decl [.emitted r (some e)]] p ∧
      d.options.keepSecretProperties = true ∧ p.ledger.find "inner" = .ok (.found r) ∧
      ("s", .str "x") ∈ e.outputs ∧
      ∀ s, outcome (Expr.eval (d.host p.ledger) [] (readInner "s")) s = (.ok (.str "x"), s) := by
  obtain ⟨d, plan, p₀, decl, r, e, p, -, -, hr, hk, ho, hf⟩ := exists_deploying
  have hmem : ("s", Json.str "x") ∈ e.outputs := by simp [ho, deployed]
  obtain ⟨-, -, hread⟩ := hr.reads_outputs (List.mem_singleton_self _) (List.mem_singleton_self _) hk
  obtain ⟨-, hread⟩ := hread "s" (.str "x") hmem
  refine ⟨d, plan, p₀, decl, r, e, p, hr, hk, hf, hmem, fun s => ?_⟩
  exact hread "inner" hf [] (.str "inner") (readInner "s") s s rfl (readsOutput_readInner "s")

/-- An output that is null cannot be read, and a null member of one is lost. -/
theorem reads_outputs_null :
    ∃ d plan p₀ decl r e p,
      Template.ofJson deploying = .ok d.template ∧
      outcome (prepare d) (.start {} d.template.resources) = (.ok plan, p₀) ∧
      Reached keeping (keeping.nestedAt 1) d plan p₀ [.committed decl [.emitted r (some e)]] p ∧
      d.options.keepSecretProperties = true ∧ p.ledger.find "inner" = .ok (.found r) ∧
      ("n", .null) ∈ e.outputs ∧ ("o", .obj [("a", .null)]) ∈ e.outputs ∧
      ∀ s, outcome (Expr.eval (d.host p.ledger) [] (readInner "n")) s =
          (.error (.missingProperty "value"), s) ∧
        outcome (Expr.eval (d.host p.ledger) [] (readInner "o")) s = (.ok (.obj []), s) := by
  obtain ⟨d, plan, p₀, decl, r, e, p, ht, h₀, hr, hk, ho, hf⟩ := exists_deploying
  obtain ⟨q, s, ha⟩ := hr.attempted (List.mem_singleton_self _)
  have hshows : Shows r e.outputs := attempt_shows ha hk (List.mem_singleton_self _)
  rw [ho] at hshows
  refine ⟨d, plan, p₀, decl, r, e, p, ht, h₀, hr, hk, hf, by simp [ho, deployed],
    by simp [ho, deployed], fun s => ⟨?_, ?_⟩⟩
  · exact hshows.outcome_eval (v := .null) rfl hf rfl (readsOutput_readInner "n")
  · exact hshows.outcome_eval (v := .obj [("a", .null)]) rfl hf rfl (readsOutput_readInner "o")

end Expander
end ResourceTemplate
