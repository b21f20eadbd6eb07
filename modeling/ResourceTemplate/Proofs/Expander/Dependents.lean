import Mathlib.Logic.Relation
import ResourceTemplate.Proofs.Expander.Bindings
import ResourceTemplate.Proofs.Expander.Dependencies

namespace ResourceTemplate

namespace Settlement

@[simp] def failure? (deployment : String) : Settlement → Option ExpansionFailure
  | .committed .. => none
  | .failed decl error => some ⟨deployment, .resource decl.describe, error⟩

/-- What a declaration adds to the failures of its deployment: its own, or those of the deployments that
its instances nest. -/
def failures (deployment : String) (e : Settlement) : List ExpansionFailure :=
  (e.failure? deployment).toList ++ e.instances.flatMap Instance.failures

end Settlement

/-- The failures that the declarations of a history add to those of a deployment. -/
def History.failures (h : History) (deployment : String) : List ExpansionFailure :=
  h.flatMap (Settlement.failures deployment)

theorem History.failures_append (h k : History) (deployment : String) :
    History.failures (h ++ k) deployment = h.failures deployment ++ k.failures deployment :=
  List.flatMap_append

namespace Progress

theorem stateOf_ne_failed (instances : List Instance) : stateOf instances ≠ .failed := by
  unfold stateOf
  split <;> simp

/-- A committed declaration adds the failures of what its instances nest. -/
theorem commit_failures {decl : ResourceDeclaration} {instances : List Instance} {p q : Progress}
    (h : commit decl instances p = .ok q) :
    q.failures = p.failures ++ instances.flatMap Instance.failures := by
  unfold commit at h
  obtain ⟨m, hf, h⟩ := bind_eq_ok.mp h
  cases h
  have hm : m.failures = p.failures ++ instances.flatMap Instance.failures :=
    foldlM_appends (fun _ => True) Progress.failures Instance.failures
      (fun _ _ _ _ hq => ⟨trivial, (enter_adds hq).2⟩) trivial hf
  exact hm

end Progress

namespace Expander

variable {x : Expander} {nested : Nested} {d : Deployment} {plan : Plan} {p₀ : Progress}

theorem learnAll_failures {ds : List ResourceDeclaration} {p q : Progress}
    (h : outcome (ds.forM (learnIdentities d)) p = (.ok (), q)) : q.failures = p.failures := by
  induction ds generalizing p with
  | nil =>
    cases h
    rfl
  | cons decl ds ih =>
    obtain ⟨_, u, hl, h⟩ := outcome_bind_eq_ok.mp h
    rw [ih h]
    unfold learnIdentities at hl
    obtain ⟨_, _, hg, hl⟩ := outcome_bind_eq_ok.mp hl
    cases hg
    obtain ⟨identities, v, ho, hl⟩ := outcome_bind_eq_ok.mp hl
    obtain ⟨t, -, rfl⟩ := ExpandM.outcome_onScope_eq_ok.mp ho
    cases hl
    rfl

theorem prepare_failures {p q : Progress} (h : outcome (prepare d) p = (.ok plan, q)) :
    q.failures = p.failures := by
  unfold prepare at h
  obtain ⟨_, u, hd, h⟩ := outcome_bind_eq_ok.mp h
  obtain ⟨_, v, hk, h⟩ := outcome_bind_eq_ok.mp h
  obtain ⟨_, _, hg, h⟩ := outcome_bind_eq_ok.mp h
  cases hg
  obtain ⟨t, -, rfl⟩ := ExpandM.outcome_onScope_eq_ok.mp h
  refine (learnAll_failures hk).trans ?_
  rw [ExpandM.outcome_change] at hd
  unfold declareSymbols at hd
  split at hd
  · rename_i hs
    split at hs
    · cases hs
    · cases hs
      cases hd
      rfl
  · cases hd

theorem Turn.failures {decl : ResourceDeclaration} {p q : Progress} {r : Option Settlement}
    (h : Turn x nested d plan decl p (.ok r) q) :
    q.failures = p.failures ++ History.failures r.toList d.identity.name := by
  cases h with
  | commits instances s q hr ha hc =>
    simpa [History.failures, Settlement.failures] using Progress.commit_failures hc
  | waits h => simp [History.failures]
  | refers e s hr ha hs hu => simp [History.failures]
  | dependencyFailed dependency h =>
    simp [History.failures, Settlement.failures, Progress.fail, Progress.recordFailure,
      Progress.setState]
  | fails e s hr ha hs hu =>
    simp [History.failures, Settlement.failures, Progress.fail, Progress.recordFailure,
      Progress.setState]

/-- The failures that there are stem from the declarations that were settled. -/
theorem Reached.failures {h : History} {p : Progress} (h₀ : p₀.failures = [])
    (hr : Reached x nested d plan p₀ h p) : p.failures = h.failures d.identity.name := by
  induction hr with
  | start => exact h₀
  | turn hp hd hs ht ih => rw [ht.failures, ih, History.failures_append]
  | ends hp hd hs ht ih =>
    cases ht
    exact ih

theorem evalOutputs_failures {acc : Entries Json} {os : List OutputDefinition}
    {p q : Progress} {r : Except ExpandError (Entries Json)}
    (h : outcome (evalOutputs d acc os) p = (r, q)) :
    ∃ more, q.failures = p.failures ++ more ∧
      ∀ f ∈ more, f.deployment = d.identity.name ∧ ∃ o ∈ os, f.subject = .output o.name := by
  induction os generalizing acc p with
  | nil =>
    cases h
    exact ⟨[], by simp, by simp⟩
  | cons o os ih =>
    unfold evalOutputs at h
    simp only [outcome_bind, outcome_get, ExpandM.outcome_attempt, ExpandM.outcome_onScope] at h
    have later {more : List ExpansionFailure}
        (hm : ∀ f ∈ more, f.deployment = d.identity.name ∧ ∃ o ∈ os, f.subject = .output o.name) :
        ∀ f ∈ more, f.deployment = d.identity.name ∧ ∃ o' ∈ o :: os, f.subject = .output o'.name := by
      intro f hf
      obtain ⟨hd, o', ho, hs⟩ := hm f hf
      exact ⟨hd, o', List.mem_cons_of_mem o ho, hs⟩
    split at h
    · obtain ⟨more, hq, hm⟩ := ih h
      exact ⟨more, hq, later hm⟩
    · obtain ⟨more, hq, hm⟩ := ih h
      exact ⟨more, hq, later hm⟩
    · split at h
      · cases h
        exact ⟨[], by simp, by simp⟩
      · simp only [outcome_bind, outcome_modify] at h
        obtain ⟨more, hq, hm⟩ := ih h
        refine ⟨_ :: more, hq.trans (List.append_assoc ..), List.forall_mem_cons.mpr ⟨?_, later hm⟩⟩
        exact ⟨rfl, o, List.mem_cons_self, rfl⟩

/-- What a committed declaration depends on does not fail, neither before nor after. -/
theorem Reached.dependency_state {h : History} {p : Progress} (h₀ : Unsettled d p₀)
    (hr : Reached x nested d plan p₀ h p) {decl : ResourceDeclaration} {instances : List Instance}
    (hc : .committed decl instances ∈ h) {o : Nat} (ho : o ∈ plan.dependenciesOf decl.ordinal) :
    p.ledger.state o ≠ .failed := by
  obtain ⟨before, after, hh⟩ := List.append_of_mem hc
  obtain ⟨m, _, hm, -, -, ht⟩ := hr.split hh
  have hrec := hm.recorded h₀
  cases ht with
  | commits _ _ _ hready _ _ =>
    have hs := readiness_ready hready o ho
    have hmem : o ∈ History.ordinals before := by
      rw [hrec.mem_ordinals_iff]
      rcases hs with hs | hs <;> simp [hs]
    -- it was settled before the commit, so its state is what it was then
    obtain ⟨e, he, rfl⟩ := List.mem_map.mp hmem
    have hlast : p.ledger.state e.ordinal = e.state :=
      (hr.recorded h₀).state_of_mem (hh ▸ List.mem_append_left _ he)
    rw [hlast, ← hrec.state_of_mem he]
    rcases hs with hs | hs <;> simp [hs]

/-- Whether one declaration depends on another directly: it stands in it, or its texts mean it. -/
def Plan.Needs (plan : Plan) (i j : Nat) : Prop := j ∈ plan.dependenciesOf i

namespace Run

variable {depth : Nat} (run : Run x depth)

/-- How a declaration was settled. One that failed is the subject of one failure of its deployment and
has no instances; any other is the subject of none. -/
structure Accounts (decl : ResourceDeclaration) : Prop where
  failed : run.final.ledger.state decl.ordinal = .failed → ∃ error,
    run.history.only decl.ordinal = [.failed decl error] ∧
      (run.history.only decl.ordinal).failures run.deployment.identity.name =
        [⟨run.deployment.identity.name, .resource decl.describe, error⟩] ∧
      (run.history.only decl.ordinal).instances = []
  others : run.final.ledger.state decl.ordinal ≠ .failed → ∃ instances,
    run.history.only decl.ordinal = [.committed decl instances] ∧
      (run.history.only decl.ordinal).failures run.deployment.identity.name =
        instances.flatMap Instance.failures ∧
      ∀ i ∈ instances, ∀ e, i.nested? = some e → Expands (x.nestedAt depth) e

/-- What a run emits and records stems from the instances of the declarations that were settled. -/
structure Records : Prop where
  emitted : run.final.emitted = run.history.instances.flatMap Instance.block
  resources : run.final.ledger.resources = run.history.instances.flatMap Instance.resources
  existing : run.final.ledger.existing = run.history.instances.flatMap Instance.existingResources
  skipped : run.final.ledger.skipped = run.history.instances.flatMap Instance.skippedIds
  bound : ∀ name, run.final.ledger.symbols.getIds name = run.history.boundIds name

theorem records : run.Records where
  emitted := run.recorded.emitted
  resources := run.recorded.resources
  existing := run.recorded.existing
  skipped := run.recorded.skipped
  bound := run.reached.getIds run.unsettled

theorem exists_settlement {decl : ResourceDeclaration}
    (hd : decl ∈ run.deployment.template.resources) : ∃ e ∈ run.history, e.declaration = decl := by
  have hn := Template.ofJson_numbered run.read
  have hmem : decl.ordinal ∈ run.history.ordinals :=
    run.settled_once.mem_iff.mpr (List.mem_range.mpr (hn.lt_length hd))
  obtain ⟨e, he, ho⟩ := List.mem_map.mp hmem
  have hg := hn.getElem? (run.recorded.declared e he)
  have ho' : e.declaration.ordinal = decl.ordinal := ho
  rw [ho', hn.getElem? hd] at hg
  exact ⟨e, he, (Option.some.inj hg).symm⟩

theorem accounts {decl : ResourceDeclaration} (hd : decl ∈ run.deployment.template.resources) :
    run.Accounts decl := by
  obtain ⟨e, he, rfl⟩ := run.exists_settlement hd
  have hstate : run.final.ledger.state e.declaration.ordinal = e.state := run.recorded.state_of_mem he
  have honly : run.history.only e.declaration.ordinal = [e] := run.recorded.only_of_mem he
  cases e with
  | failed decl error =>
    refine ⟨fun _ => ⟨error, honly, ?_, ?_⟩, fun hs => absurd hstate hs⟩
    · rw [honly]
      rfl
    · rw [honly]
      rfl
  | committed decl instances =>
    refine ⟨fun hs => absurd (hstate.symm.trans hs) (Progress.stateOf_ne_failed instances),
      fun _ => ⟨instances, honly, ?_, ?_⟩⟩
    · rw [honly]
      simp [History.failures, Settlement.failures]
    · obtain ⟨before, after, hh⟩ := List.append_of_mem he
      obtain ⟨-, -, hfits⟩ := run.reached.committed run.unsettled hh
      intro i hi e hn
      cases i with
      | emitted r inner => exact Emits.inner (hfits _ hi) e hn
      | existing r => cases hn
      | skipped id => cases hn

theorem failed_of_needs {decl : ResourceDeclaration}
    (hd : decl ∈ run.deployment.template.resources) {o : Nat}
    (ho : run.plan.Needs decl.ordinal o) (hf : run.final.ledger.state o = .failed) :
    run.final.ledger.state decl.ordinal = .failed := by
  obtain ⟨e, he, rfl⟩ := run.exists_settlement hd
  have hstate : run.final.ledger.state e.declaration.ordinal = e.state := run.recorded.state_of_mem he
  cases e with
  | failed decl error => exact hstate
  | committed decl instances => exact absurd hf (run.reached.dependency_state run.unsettled he ho)

/-- What depends on a declaration that failed, directly or not, failed. -/
theorem failed_of_transGen {decl : ResourceDeclaration}
    (hd : decl ∈ run.deployment.template.resources) {o : Nat}
    (ho : Relation.TransGen run.plan.Needs decl.ordinal o)
    (hf : run.final.ledger.state o = .failed) : run.final.ledger.state decl.ordinal = .failed := by
  generalize hi : decl.ordinal = i at ho
  induction ho using Relation.TransGen.head_induction_on generalizing decl with
  | single h =>
    subst hi
    exact run.failed_of_needs hd h hf
  | @head i j h hj ih =>
    subst hi
    have hlt : j < run.deployment.template.resources.length := run.planned.lt run.unsettled hd h
    obtain ⟨e, he⟩ : ∃ e, run.deployment.template.resources[j]? = some e :=
      ⟨_, List.getElem?_eq_getElem hlt⟩
    have hj : e.ordinal = j := (Template.ofJson_numbered run.read).ordinal he
    exact run.failed_of_needs hd h (ih (List.mem_of_getElem? he) hj)

theorem failures : run.final.failures = run.history.failures run.deployment.identity.name := by
  apply run.reached.failures
  rw [prepare_failures run.prepared]
  rfl

end Run

/-- Whatever deployment expands, at whatever depth: what depends on a declaration that failed, because it
stands in it or because its texts mean it, directly or through others, failed too. A declaration that
failed is the subject of one failure of the deployment and has no instances; any other is the subject of
none. All that is emitted, bound, and recorded as existing or skipped stems from instances of
declarations, and all failures but those of outputs are what the declarations add. -/
theorem expandAt_failures {depth : Nat} {v : Json} {t : Template} {identity : DeploymentIdentity}
    {values : Entries Json} {log log' : List Diagnostic} {e : ExpandedDeployment}
    (ht : Template.ofJson v = .ok t)
    (h : x.expandAt depth t identity values log = (.ok e, log')) :
    ∃ run : Run x depth, run.deployment.template = t ∧ run.deployment.identity = identity ∧
      run.Gives e ∧ Planned run.deployment run.start.ledger run.plan ∧
      (∀ decl ∈ t.resources, ∀ o, Relation.TransGen run.plan.Needs decl.ordinal o →
        run.final.ledger.state o = .failed → run.final.ledger.state decl.ordinal = .failed) ∧
      (∀ decl ∈ t.resources, run.Accounts decl) ∧ run.Records ∧
      ∃ others, e.failures = run.history.failures identity.name ++ others ∧
        ∀ f ∈ others, f.deployment = identity.name ∧ ∃ o ∈ t.outputs, f.subject = .output o.name := by
  obtain ⟨run, hc, outputs, p, ho, rfl⟩ := expandAt_evaluated ht h
  obtain ⟨rfl, rfl, -⟩ := create_ok hc
  obtain ⟨others, hf, hothers⟩ := evalOutputs_failures ho
  refine ⟨run, rfl, rfl, run.gives_result ho, run.planned,
    fun decl hd o => run.failed_of_transGen hd, fun decl => run.accounts, run.records, others, ?_,
    hothers⟩
  rw [← run.failures]
  exact hf

/-- The first of four declarations fails, the second and the third depend on it, and the fourth does
not. -/
def failingChain : Json := .obj
  [("languageVersion", .str "2.0"),
   ("resources", .obj
    [("a", .obj [("type", .str "A/b"), ("name", .str "[parameters('p')]")]),
     ("b", .obj [("type", .str "A/b"), ("name", .str "y"), ("dependsOn", .arr [.str "a"])]),
     ("c", .obj [("type", .str "A/b"), ("name", .str "z"), ("dependsOn", .arr [.str "b"])]),
     ("e", .obj [("type", .str "A/b"), ("name", .str "w")])])]

theorem expandAt_failures_failingChain :
    ∃ t e log, Template.ofJson failingChain = .ok t ∧
      small.expandAt 1 t (.root small.options t.scopeLevel) [] [] = (.ok e, log) ∧
      e.failures.map ExpansionFailure.subject = [.resource "a", .resource "b", .resource "c"] ∧
      e.resources.map (fun r => r.identity.name) = ["w"] ∧
      ∃ run : Run small 1, run.deployment.template = t ∧ run.Gives e ∧
        (∀ decl ∈ t.resources, run.Accounts decl) := by
  have hc : (Template.ofJson failingChain).toOption.any fun t =>
      (small.expandAt 1 t (.root small.options t.scopeLevel) [] []).1.toOption.any fun e =>
        e.failures.map ExpansionFailure.subject = [.resource "a", .resource "b", .resource "c"] ∧
          e.resources.map (fun r => r.identity.name) = ["w"] := by
    decide +kernel
  obtain ⟨t, ht, hc⟩ := (Option.any_eq_true _ _).mp hc
  obtain ⟨e, he, hc⟩ := (Option.any_eq_true _ _).mp hc
  obtain ⟨hf, hr⟩ := of_decide_eq_true hc
  have ht' := toOption_eq_some.mp ht
  have he' : small.expandAt 1 t (.root small.options t.scopeLevel) [] [] = (.ok e, _) :=
    Prod.ext (toOption_eq_some.mp he) rfl
  obtain ⟨run, hrt, -, hg, -, -, hrun, -⟩ := expandAt_failures ht' he'
  exact ⟨t, e, _, ht', he', hf, hr, run, hrt, hg, hrun⟩

end Expander
end ResourceTemplate
