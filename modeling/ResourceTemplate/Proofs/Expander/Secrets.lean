import ResourceTemplate.Proofs.Deployment.Secrets
import ResourceTemplate.Proofs.Expander.Changes
import ResourceTemplate.Proofs.Expander.Dependencies

namespace ResourceTemplate

section
variable {maxCount : Nat} {strings : Value.Strings}

theorem Value.yields_evalCopyList (pointer : String) (entries : List Json) {acc : Entries Json}
    (h : acc.keys.Nodup) :
    Yields (evalCopyList maxCount strings pointer acc entries) (·.keys.Nodup) := by
  induction entries generalizing acc with
  | nil => exact .pure h
  | cons entry entries ih => exact .after fun _ => ih (Entries.nodup_insert h _ _)

theorem Value.yields_evalMembers (pointer : String) (members : List (String × Json))
    {acc : Entries Json} (h : acc.keys.Nodup) :
    Yields (evalMembers maxCount strings pointer acc members) (·.keys.Nodup) := by
  induction members generalizing acc with
  | nil => exact .pure h
  | cons e members ih =>
    obtain ⟨k, v⟩ := e
    unfold evalMembers
    dsimp only
    split
    · refine .bind (Q := (·.keys.Nodup)) ?_ fun _ => ih
      cases v with
      | arr entries => exact yields_evalCopyList _ entries h
      | _ => exact .pure h
    · exact .after fun _ => .after fun _ => ih (Entries.nodup_insert h _ _)

theorem Deployment.yields_evalObject (d : Deployment) (l : Ledger) (pointer : String)
    (members : Entries Json) : Yields (d.evalObject l pointer members) (·.keys.Nodup) :=
  Value.yields_evalMembers pointer members List.nodup_nil

end

namespace Expander

variable {x : Expander} {nested : Nested} {d : Deployment} {l : Ledger} {plan : Plan}

theorem nodup_setProperty {body : Entries Json} (h : body.keys.Nodup) (key : String) (v : Json) :
    (setProperty body key v).keys.Nodup := Entries.nodup_insert h _ _

theorem nodup_withTemplate {body : Entries Json} (inline : Option Json) (h : body.keys.Nodup) :
    Entries.keys (match inline with
      | some template => setProperty body "template" template
      | none => body) |>.Nodup := by
  split
  · exact nodup_setProperty h _ _
  · exact h

theorem yields_expandNested_keys (decl : ResourceDeclaration) (identity : ResourceIdentity)
    {body : Entries Json} (inline : Option Json) (h : body.keys.Nodup) :
    Yields (x.expandNested nested d decl identity body inline) (·.1.keys.Nodup) := by
  have hbody := nodup_withTemplate inline h
  unfold expandNested
  refine .after fun template => ?_
  split
  · exact .pure hbody
  · refine .bind (Q := (·.1.keys.Nodup)) ?_ fun y hy => .pure hy
    exact .after fun t => .after fun e => .pure (nodup_setProperty hbody _ _)

/-- The body of an instance before secrets are replaced in it, with its identity and with what its nested
template expands to. -/
def exposed (x : Expander) (nested : Nested) (d : Deployment) (l : Ledger)
    (decl : ResourceDeclaration) :
    ScopeM (ResourceIdentity × Entries Json × Option ExpandedDeployment) := do
  let (raw, inline) := if isDeployment decl then takeTemplate decl.body else (decl.body, none)
  let body ← d.evalObject l decl.pointer raw
  let identity ← ScopeM.lift (d.identityOf decl body)
  let (body, expanded) ←
    if isDeployment decl then x.expandNested nested d decl identity body inline
    else pure (body, none)
  return (identity, body, expanded)

theorem yields_exposed (decl : ResourceDeclaration) :
    Yields (x.exposed nested d l decl) (·.2.1.keys.Nodup) := by
  unfold exposed
  dsimp only
  refine .bind (d.yields_evalObject _ _ _) fun body hb => .after fun identity => ?_
  split
  · exact .bind (yields_expandNested_keys decl identity _ hb) fun y hy => .pure hy
  · exact .bind (Q := (·.1.keys.Nodup)) (.pure hb) fun y hy => .pure hy

/-- An instance that is not one of what exists is its body with the secrets replaced. -/
theorem expandActive_eq {dependsOn : List String} {decl : ResourceDeclaration} {index : Option Nat}
    (he : decl.existing = false) :
    x.expandActive nested d l dependsOn decl index = do
      let (identity, body, expanded) ← x.exposed nested d l decl
      let (body, redacted) :=
        x.redact d.options.keepSecretProperties (← get).secure identity.type body
      return .emitted { ResourceValue.make identity body dependsOn d.identity.name with
        symbolicName := decl.symbolicName, copyIndex := index.map Int.ofNat, redacted } expanded := by
  unfold expandActive exposed
  cases isDeployment decl <;> simp [he, bind_assoc]

/-- An emitted resource is made of its body with the secrets replaced. -/
theorem expandActive_emitted {dependsOn : List String} {decl : ResourceDeclaration}
    {index : Option Nat} {s t : Scope} {r : ResourceValue} {inner : Option ExpandedDeployment}
    (h : outcome (x.expandActive nested d l dependsOn decl index) s = (.ok (.emitted r inner), t)) :
    ∃ body, outcome (x.exposed nested d l decl) s = (.ok (r.identity, body, inner), t) ∧
      r.dependsOn = dependsOn ∧ r.body = ResourceValue.makeBody r.identity
        (x.redact d.options.keepSecretProperties t.secure r.identity.type body).1 dependsOn := by
  cases he : decl.existing with
  | true =>
    unfold expandActive at h
    simp only [he, if_true] at h
    obtain ⟨_, _, -, h⟩ := outcome_bind_eq_ok.mp h
    obtain ⟨_, _, -, h⟩ := outcome_bind_eq_ok.mp h
    cases h
  | false =>
    rw [expandActive_eq he] at h
    obtain ⟨⟨identity, body, expanded⟩, u, hx, h⟩ := outcome_bind_eq_ok.mp h
    obtain ⟨_, _, hg, h⟩ := outcome_bind_eq_ok.mp h
    cases hg
    cases h
    exact ⟨body, hx, rfl, rfl⟩

theorem redactSecure_cons (secure : List Json) (k : String) (v : Json) (body : Entries Json) :
    (redactSecure secure ((k, v) :: body)).1 =
      (k, if isSearched k then (Redaction.ofValue secure k v).1 else v) ::
        (redactSecure secure body).1 := by
  unfold redactSecure
  cases hk : isSearched k <;> simp [hk]

theorem keys_redactSecure (secure : List Json) (body : Entries Json) :
    Entries.keys (redactSecure secure body).1 = body.keys := by
  induction body with
  | nil => rfl
  | cons e body ih =>
    rw [redactSecure_cons]
    exact congrArg (e.1 :: ·) ih

theorem get?_redactSecure (secure : List Json) (body : Entries Json) {key : String}
    (hk : isSearched key = true) : Entries.get? (redactSecure secure body).1 key =
      (body.get? key).map fun v => (Redaction.ofValue secure key v).1 := by
  induction body with
  | nil => rfl
  | cons e body ih =>
    rw [redactSecure_cons, Entries.get?_cons, Entries.get?_cons, ih]
    by_cases he : e.1 = key
    · simp [he, hk]
    · simp [he]

/-- The place of a secret in a body is hidden when secrets are replaced, and no key changes. -/
theorem redact_hidden (x : Expander) (type : String) {secure : List Json} {key : String}
    {place : PropertyPath} {w : Json} {body : Entries Json}
    (hw : (Json.obj body).at? (.key key :: place) = some w)
    (hs : Redaction.isSecure secure w = true) (hk : isSearched key = true) :
    Entries.keys (x.redact false secure type body).1 = body.keys ∧
      (Json.obj (x.redact false secure type body).1).Hidden (.key key :: place) := by
  obtain ⟨v, hv, hw⟩ := Option.bind_eq_some_iff.mp hw
  have hcovers := x.secrets.redact_covers type false (redactSecure secure body).1
  have hget := get?_redactSecure secure body hk
  rw [hv] at hget
  exact ⟨hcovers.keys.trans (keys_redactSecure secure body),
    hcovers.hidden _ (.member hget (Redaction.ofValue_hidden key hw hs))⟩

/-- An emitted instance is expanded once its condition was evaluated, which holds. -/
theorem expandInstance_emitted {dependsOn : List String} {decl : ResourceDeclaration}
    {index : Option Nat} {s u : Scope} {r : ResourceValue} {inner : Option ExpandedDeployment}
    (h : outcome (x.expandInstance nested d l dependsOn decl index) s = (.ok (.emitted r inner), u)) :
    ∃ t, d.LeadsTo s t ∧ d.LeadsTo t u ∧
      outcome (x.expandActive nested d l dependsOn decl index) t = (.ok (.emitted r inner), u) := by
  have hl := d.steady_leadsTo.evalSteady
  have ho := hl.evalObeys l
  have hn : nested.Obeys hl.discipline := hl.runNested nested
  unfold expandInstance at h
  obtain ⟨b, t, hb, h⟩ := outcome_bind_eq_ok.mp h
  have ht := obeys_holds ho (decl.pointer ++ "/condition") decl.condition s
  rw [hb] at ht
  cases b with
  | true =>
    have hu := obeys_expandActive (x := x) ho hn dependsOn decl index t
    rw [if_pos rfl] at h
    rw [h] at hu
    exact ⟨t, ht, hu, h⟩
  | false =>
    obtain ⟨_, _, -, h⟩ := outcome_bind_eq_ok.mp h
    cases h

/-- An emitted instance of an attempt is expanded from a scope to which evaluation leads. -/
theorem attempt_emitted {decl : ResourceDeclaration} {p : Progress} {instances : List Instance}
    {s : Scope} (h : x.attempt nested d plan decl p = (.ok instances, s)) {r : ResourceValue}
    {inner : Option ExpandedDeployment} (hr : .emitted r inner ∈ instances) :
    ∃ index t u, d.LeadsTo p.scope t ∧ d.LeadsTo t u ∧
      outcome (x.expandActive nested d p.ledger (awaitedIds plan p decl) decl index) t =
        (.ok (.emitted r inner), u) := by
  have hl := d.steady_leadsTo.evalSteady
  obtain ⟨i, hi⟩ := List.mem_iff_getElem?.mp hr
  obtain ⟨n, t, u, v, -, -, hu, hinst⟩ := attempt_at hl h hi
  obtain ⟨_, hinst⟩ := ResourceDeclaration.exists_of_inLoop hinst
  have hloop := Deployment.LeadsTo.loops (d := d) u (decl.loopsAt i ++ u.loops)
  obtain ⟨w, hw, hv, ha⟩ := expandInstance_emitted hinst
  exact ⟨_, w, _, hl.trans _ _ _ hu (hl.trans _ _ _ hloop hw), hv, ha⟩

namespace Run

variable {depth : Nat}

/-- Where the body of a resource shows a secret, the resource is hidden. The body is evaluated when the
run has reached some progress, and has the secrets replaced that are known then: whatever shows the value
that a secure parameter of the run's deployment gave until then is hidden, wherever it stands but under
the keys of the name and the type and those that the expansion sets. -/
def Conceals (run : Run x depth) (decl : ResourceDeclaration) (r : ResourceValue) : Prop :=
  ∃ h q s identity body inner u,
    Reached x (x.nestedAt depth) run.deployment run.plan run.start h q ∧
    run.deployment.Later q.scope s ∧
    outcome (x.exposed (x.nestedAt depth) run.deployment q.ledger decl) s =
      (.ok (identity, body, inner), u) ∧
    r.body = ResourceValue.makeBody identity
      (x.redact false u.secure identity.type body).1 r.dependsOn ∧
    ∀ name p v w key place, run.deployment.template.parameter? name = some p →
      p.type.isSecure = true → run.deployment.Gave u name v → v.Shows w →
      (Json.obj body).at? (.key key :: place) = some w → isSearched key = true →
      ResourceValue.isReserved key = false → (Json.obj r.body).Hidden (.key key :: place)

/-- A run of which no parameter was asked for before, with the options of the expander. -/
structure Fresh (run : Run x depth) : Prop where
  options : run.deployment.options = x.options
  parameters : run.scope.parameters = []

theorem Fresh.remembers {run : Run x depth} (h : run.Fresh) :
    run.deployment.Remembers run.scope := by
  intro name p v w _ _ hv _
  rw [h.parameters] at hv
  cases hv

/-- Evaluation leads from where a run starts to all that it reaches. -/
theorem leads (run : Run x depth) {h : History} {p : Progress}
    (hr : Reached x (x.nestedAt depth) run.deployment run.plan run.start h p) :
    run.deployment.LeadsTo run.scope p.scope := by
  have hl := run.deployment.steady_leadsTo
  have hstart := prepare_steady hl.evalSteady (.start run.scope run.deployment.template.resources)
  rw [run.prepared] at hstart
  exact hl.trans _ _ _ hstart (hr.steady hl.evalSteady fun s diagnostics => .diagnostics s diagnostics)

/-- What a declaration of a run emits conceals the secrets of the deployment. -/
theorem conceals {run : Run x depth} (hf : run.Fresh) (hk : x.options.keepSecretProperties = false)
    {n : Nat} {decl : ResourceDeclaration} {r : ResourceValue} {inner : Option ExpandedDeployment}
    (h : run.history.Begins n decl (.emitted r inner)) : run.Conceals decl r := by
  obtain ⟨before, after, first, last, hh, -⟩ := h
  obtain ⟨p, m, hp, -, -, ht⟩ := run.reached.split hh
  cases ht with
  | commits instances s _ _ ha _ =>
    obtain ⟨index, t, u, hpt, htu, hactive⟩ :=
      attempt_emitted ha (List.mem_append_right _ List.mem_cons_self)
    obtain ⟨body, hx, hids, hbody⟩ := expandActive_emitted hactive
    rw [hf.options, hk, ← hids] at hbody
    refine ⟨before, p, t, r.identity, body, inner, u, hp, hpt.later, hx, hbody, ?_⟩
    intro name p' v w key place hp' hs hv hw hat hkey hreserved
    -- secrets are remembered from the start of the run on
    have hu : run.deployment.Remembers u :=
      ((run.leads hp).later.trans (hpt.later.trans htu.later)).remembers hf.remembers
    obtain ⟨hkeys, hhidden⟩ := redact_hidden x r.identity.type hat
      (hu.isSecure hp' hs hv hw) hkey
    have hnodup : body.keys.Nodup := yields_exposed decl _ _ _ hx
    have hsearched : Name.same key "name" = false ∧ Name.same key "type" = false := by
      simpa [isSearched] using hkey
    rw [hbody]
    exact ResourceValue.makeBody_hidden (hkeys ▸ hnodup) hhidden hreserved hsearched.1 hsearched.2

end Run

/-- A run starts afresh where its deployment was just made. -/
theorem Run.fresh_of_create {depth : Nat} {run : Run x depth} {t : Template} {identity : DeploymentIdentity}
    {values : Entries Json} {log : List Diagnostic}
    (hc : outcome (Deployment.create t x.options identity values) { log } = (.ok run.deployment, run.scope)) :
    run.Fresh := by
  have hcreate := Deployment.create_parameters t x.options identity values { log }
  rw [hc] at hcreate
  exact ⟨(create_ok hc).2.2, hcreate⟩

end Expander
end ResourceTemplate
