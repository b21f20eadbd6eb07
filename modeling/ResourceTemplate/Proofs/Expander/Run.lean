import ResourceTemplate.Expander.Instance
import ResourceTemplate.Proofs.Expander.Loop
import ResourceTemplate.Proofs.Outcome

namespace ResourceTemplate

section

def Expands (nested : Expander.Nested) (e : ExpandedDeployment) : Prop :=
  ∃ v t identity values log log',
    Template.ofJson v = .ok t ∧ nested t identity values log = (.ok e, log')

/-- What is known of an emitted instance of a declaration that depends on these ids. -/
structure Emits (nested : Expander.Nested) (ids : List String) (r : ResourceValue)
    (inner : Option ExpandedDeployment) : Prop where
  dependsOn : r.dependsOn = ids
  body : ∃ identity evaluated, r.body = ResourceValue.makeBody identity evaluated ids
  inner : ∀ e, inner = some e → Expands nested e

/-- Whether an instance is as the declaration of its resource demands. -/
def Instance.Fits (nested : Expander.Nested) (ids : List String) : Instance → Prop
  | .emitted r inner => Emits nested ids r inner
  | _ => True

namespace Expander

variable {x : Expander} {nested : Nested} {d : Deployment} {l : Ledger} {dependsOn : List String}

theorem yields_expandTemplate (identity : ResourceIdentity) (body : Entries Json) (v : Json) :
    Yields (expandTemplate nested d identity body v) fun y => Expands nested y.2 := by
  unfold expandTemplate
  refine .bind (ScopeM.yields_lift fun _ => id) fun t ht => ?_
  refine .bind (Q := Expands nested) ?_ fun e he => .pure he
  intro s e u hr
  have hn := congrArg Prod.fst hr
  exact ⟨v, t, _, _, s.log, _, ht, Prod.ext hn rfl⟩

theorem yields_expandNested (decl : ResourceDeclaration) (identity : ResourceIdentity)
    (body : Entries Json) (inline : Option Json) :
    Yields (x.expandNested nested d decl identity body inline) fun y =>
      ∀ e, y.2 = some e → Expands nested e := by
  unfold expandNested
  refine .after fun template => ?_
  cases template with
  | none => exact .pure (by simp)
  | some v =>
    refine .bind (yields_expandTemplate identity _ v) fun y hy => .pure ?_
    rintro e ⟨⟩
    exact hy

theorem yields_expandActive (decl : ResourceDeclaration) (index : Option Nat) :
    Yields (x.expandActive nested d l dependsOn decl index) (Instance.Fits nested dependsOn) := by
  unfold expandActive
  refine .after fun body => .after fun identity => ?_
  dsimp only
  split
  · exact .pure trivial
  · split
    · refine .bind (yields_expandNested decl identity body _) fun y hy => .after fun s => .pure ?_
      exact ⟨rfl, ⟨identity, _, rfl⟩, hy⟩
    · refine .bind (.pure rfl : Yields _ fun y => y = (body, none)) fun y hy =>
        .after fun s => .pure ?_
      exact ⟨rfl, ⟨identity, _, rfl⟩, by simp [hy]⟩

/-- The instances of a declaration have a property that skipped ones have and those whose condition holds. -/
theorem yields_expandInstances_of {P : Instance → Prop} {decl : ResourceDeclaration}
    (hactive : ∀ index, Yields (x.expandActive nested d l dependsOn decl index) P)
    (hskipped : ∀ id, P (.skipped id)) :
    Yields (x.expandInstances nested d l dependsOn decl) fun is => ∀ i ∈ is, P i := by
  have once (index : Option Nat) : Yields (x.expandInstance nested d l dependsOn decl index) P := by
    unfold expandInstance
    refine .after fun holds => ?_
    cases holds with
    | true => exact hactive index
    | false => exact .after fun identity => .pure (hskipped _)
  unfold expandInstances
  cases decl.copy with
  | none =>
    refine .bind (once none) fun i hi => .pure ?_
    simpa using hi
  | some copy =>
    refine .after fun n => .mapM fun i _ => ?_
    exact ScopeM.yields_withLoop (once (some i)) copy.name i

theorem yields_expandInstances (decl : ResourceDeclaration) :
    Yields (x.expandInstances nested d l dependsOn decl) fun is =>
      ∀ i ∈ is, Instance.Fits nested dependsOn i :=
  yields_expandInstances_of (yields_expandActive decl) fun _ => trivial

end Expander
end

def Progress.result (p : Progress) (name : String) (outputs : Entries Json) : ExpandedDeployment where
  name := name
  resources := p.emitted
  outputs := outputs
  failures := p.failures
  diagnostics := p.scope.diagnostics
  symbols := p.ledger.symbols

namespace Expander

/-- The expansion of the deployments nested in one below which `depth` more may be nested. -/
def nestedAt (x : Expander) : (depth : Nat) → Nested
  | 0 => x.refuseNested
  | depth + 1 => x.expandAt depth

theorem expandAt_eq (x : Expander) (depth : Nat) :
    x.expandAt depth = x.expandWith (x.nestedAt depth) := by
  cases depth <;> rfl

theorem evalOutputs_keeps {d : Deployment} {acc : Entries Json} {os : List OutputDefinition}
    {p q : Progress} {r : Except ExpandError (Entries Json)}
    (h : outcome (evalOutputs d acc os) p = (r, q)) :
    q.emitted = p.emitted ∧ q.ledger = p.ledger := by
  induction os generalizing acc p with
  | nil =>
    cases h
    exact ⟨rfl, rfl⟩
  | cons o os ih =>
    unfold evalOutputs at h
    simp only [outcome_bind, outcome_get, ExpandM.outcome_attempt, ExpandM.outcome_onScope] at h
    split at h
    · have hq := ih h
      exact hq
    · have hq := ih h
      exact hq
    · split at h
      · cases h
        exact ⟨rfl, rfl⟩
      · simp only [outcome_bind, outcome_modify] at h
        have hq := ih h
        exact hq

/-- A deployment of a template that was read, and the run of the loop that settles all of its
declarations. Below it `depth` more deployments may be nested. -/
structure Run (x : Expander) (depth : Nat) where
  source : Json
  deployment : Deployment
  scope : Scope
  plan : Plan
  start : Progress
  passes : Nat
  trace : Trace
  final : Progress
  read : Template.ofJson source = .ok deployment.template
  prepared : outcome (prepare deployment) (.start scope deployment.template.resources) =
    (.ok plan, start)
  loop : Loop x (x.nestedAt depth) deployment plan passes plan.order start trace (.ok ()) final
  settled : outcome (x.settleAll (x.nestedAt depth) deployment plan) start = (.ok (), final)

namespace Run

variable {x : Expander} {depth : Nat} (run : Run x depth)

def history : History := run.trace.history

theorem unsettled : Unsettled run.deployment run.start :=
  (prepare_ok (Template.ofJson_numbered run.read) run.prepared).1

theorem planned : Planned run.deployment run.start.ledger run.plan :=
  (prepare_ok (Template.ofJson_numbered run.read) run.prepared).2

theorem reached :
    Reached x (x.nestedAt depth) run.deployment run.plan run.start run.history run.final :=
  (run.loop.reached (Template.ofJson_numbered run.read) (run.unsettled.pending run.planned) .start).1

theorem recorded : Recorded run.deployment run.start.ledger.known run.history run.final :=
  run.reached.recorded run.unsettled

/-- Every declaration was settled, and none of them twice. -/
theorem settled_once :
    run.history.ordinals.Perm (List.range run.deployment.template.resources.length) :=
  (run.loop.perm (Template.ofJson_numbered run.read) (run.unsettled.pending run.planned)).trans
    run.planned.order

/-- Whether a run gives what a deployment expands to. -/
structure Gives (e : ExpandedDeployment) : Prop where
  name : e.name = run.deployment.identity.name
  resources : e.resources = run.final.emitted
  symbols : e.symbols = run.final.ledger.symbols

theorem gives_result {os : List OutputDefinition} {outputs : Entries Json} {p : Progress}
    (h : outcome (evalOutputs run.deployment [] os) run.final = (.ok outputs, p)) :
    run.Gives (p.result run.deployment.identity.name outputs) where
  name := rfl
  resources := (evalOutputs_keeps h).1
  symbols := congrArg Ledger.symbols (evalOutputs_keeps h).2

end Run

/-- A deployment is made of its template, where it runs. -/
theorem create_ok {t : Template} {o : Options} {identity : DeploymentIdentity} {values : Entries Json}
    {d : Deployment} {s u : Scope}
    (h : outcome (Deployment.create t o identity values) s = (.ok d, u)) :
    d.template = t ∧ d.identity = identity ∧ d.options = o := by
  unfold Deployment.create at h
  obtain ⟨supplied, v, -, h⟩ := outcome_bind_eq_ok.mp h
  cases h
  exact ⟨rfl, rfl, rfl⟩

theorem expandWith_ok {x : Expander} {nested : Nested} {t : Template}
    {identity : DeploymentIdentity} {values : Entries Json} {log log' : List Diagnostic}
    {e : ExpandedDeployment} (h : x.expandWith nested t identity values log = (.ok e, log')) :
    ∃ d s outputs p, outcome (Deployment.create t x.options identity values) { log } = (.ok d, s) ∧
      outcome (x.run nested d) (.start s t.resources) = (.ok outputs, p) ∧
      e = p.result identity.name outputs ∧ log' = p.scope.log := by
  unfold expandWith at h
  split at h
  · cases h
  · rename_i d s hc
    split at h
    · cases h
    · rename_i outputs p hr
      cases h
      exact ⟨d, s, outputs, p, hc, hr, rfl, rfl⟩

/-- What expands has a run, and gives what there is after the outputs are evaluated. -/
theorem expandAt_evaluated {x : Expander} {depth : Nat} {v : Json} {t : Template}
    {identity : DeploymentIdentity} {values : Entries Json} {log log' : List Diagnostic}
    {e : ExpandedDeployment} (ht : Template.ofJson v = .ok t)
    (h : x.expandAt depth t identity values log = (.ok e, log')) :
    ∃ run : Run x depth, outcome (Deployment.create t x.options identity values) { log } =
      (.ok run.deployment, run.scope) ∧ ∃ outputs p,
        outcome (evalOutputs run.deployment [] t.outputs) run.final = (.ok outputs, p) ∧
        e = p.result identity.name outputs := by
  rw [expandAt_eq] at h
  obtain ⟨d, s, outputs, p, hc, hr, he, -⟩ := expandWith_ok h
  obtain ⟨rfl, rfl, -⟩ := create_ok hc
  rw [run_eq_prepare] at hr
  obtain ⟨plan, p₀, h₀, hr⟩ := outcome_bind_eq_ok.mp hr
  obtain ⟨_, q, hs, hr⟩ := outcome_bind_eq_ok.mp hr
  have hn := Template.ofJson_numbered ht
  obtain ⟨hu, hp⟩ := prepare_ok hn h₀
  obtain ⟨n, tr, r, q', -, hl, hf⟩ := passes_loop x (x.nestedAt depth) plan (hu.pending hp) hn
  have hsettled := hf _ (Nat.le_refl _)
  unfold settleAll at hs
  rw [hs] at hsettled
  cases hsettled
  exact ⟨⟨v, d, s, plan, p₀, n, tr, q, ht, h₀, hl, hs⟩, hc, outputs, p, hr, he⟩

end Expander
end ResourceTemplate
