import ResourceTemplate.Proofs.Expander.Dependents
import ResourceTemplate.Proofs.Expander.Iteration
import ResourceTemplate.Proofs.Expander.Outputs

namespace ResourceTemplate

/-- A resource that is emitted, with what its template expanded to if it is a deployment that has one. -/
structure Block where
  own : ResourceValue
  child : Option ExpandedDeployment

def Block.resources (b : Block) : List ResourceValue :=
  b.own :: (b.child.map ExpandedDeployment.resources).getD []

def Instance.block? : Instance → Option Block
  | .emitted r child => some ⟨r, child⟩
  | _ => none

/-- The blocks of a declaration in the order of its instances; one that failed has none. -/
def Settlement.blocks (e : Settlement) : List Block := e.instances.filterMap Instance.block?

def History.blocks (h : History) : List Block := h.flatMap Settlement.blocks

namespace Instance

theorem flatMap_block (instances : List Instance) :
    instances.flatMap block = (instances.filterMap block?).flatMap Block.resources := by
  induction instances with
  | nil => rfl
  | cons i instances ih =>
    rw [List.flatMap_cons, ih]
    cases i with
    | emitted r child => rfl
    | existing r => rfl
    | skipped id => rfl

theorem flatMap_resources (instances : List Instance) :
    instances.flatMap resources = (instances.filterMap block?).map Block.own := by
  induction instances with
  | nil => rfl
  | cons i instances ih =>
    rw [List.flatMap_cons, ih]
    cases i with
    | emitted r child => rfl
    | existing r => rfl
    | skipped id => rfl

theorem At.copyIndex {i : Nat} {inst : Instance} (h : inst.At i) {b : Block}
    (hb : inst.block? = some b) : b.own.copyIndex = some (i : Int) := by
  cases inst with
  | emitted r child =>
    cases hb
    exact h
  | existing r => cases hb
  | skipped id => cases hb

end Instance

theorem History.filterMap_block? (h : History) : h.instances.filterMap Instance.block? = h.blocks := by
  induction h with
  | nil => rfl
  | cons e h ih =>
    change List.filterMap _ (e.instances ++ instances h) = e.blocks ++ blocks h
    rw [List.filterMap_append, ih]
    rfl

theorem Settlement.state_of_blocks {e : Settlement} (h : e.blocks ≠ []) : e.state = .expanded := by
  cases e with
  | failed decl error => exact absurd rfl h
  | committed decl instances =>
    simp only [Settlement.state, Progress.stateOf]
    rw [if_neg]
    intro hall
    obtain ⟨-, hall⟩ := (Bool.and_eq_true _ _).mp hall
    apply h
    unfold blocks
    rw [List.filterMap_eq_nil_iff]
    intro i hi
    have hs := List.all_eq_true.mp hall i hi
    cases i with
    | skipped id => rfl
    | emitted r child => cases hs
    | existing r => cases hs

def Precedes (a b : Option Int) : Prop := ∃ i j, a = some i ∧ b = some j ∧ i < j

namespace Expander

variable {x : Expander} {nested : Nested} {d : Deployment} {plan : Plan}

/-! Turns that commit nothing. -/

/-- Whether a step leaves nothing of what was expanded for it: no resource, no binding of a symbol, and no
failure but that of its own declaration. -/
structure LeavesNothing (deployment : String) (p : Progress) (step : Step) : Prop where
  emitted : step.after.emitted = p.emitted
  resources : step.after.ledger.resources = p.ledger.resources
  existing : step.after.ledger.existing = p.ledger.existing
  skipped : step.after.ledger.skipped = p.ledger.skipped
  symbols : step.after.ledger.symbols = p.ledger.symbols
  failures : step.after.failures =
    p.failures ++ (step.settled?.bind (Settlement.failure? deployment)).toList

theorem Turn.leavesNothing {decl : ResourceDeclaration} {p q : Progress}
    {r : Except ExpandError (Option Settlement)} (h : Turn x nested d plan decl p r q)
    (hc : ∀ decl instances, r.toOption.join ≠ some (.committed decl instances)) :
    LeavesNothing d.identity.name p ⟨r.toOption.join, q⟩ := by
  cases h with
  | commits instances => exact absurd rfl (hc decl instances)
  | waits h => exact ⟨rfl, rfl, rfl, rfl, rfl, (List.append_nil _).symm⟩
  | refers e s => exact ⟨rfl, rfl, rfl, rfl, rfl, (List.append_nil _).symm⟩
  | ends e s => exact ⟨rfl, rfl, rfl, rfl, rfl, (List.append_nil _).symm⟩
  | dependencyFailed dependency h => exact ⟨rfl, rfl, rfl, rfl, rfl, rfl⟩
  | fails e s => exact ⟨rfl, rfl, rfl, rfl, rfl, rfl⟩

/-! Instances of a declaration. -/

/-- Whether an instance is what a declaration expands to, from this scope: its only instance, or that at an
index of its loop. -/
def ExpandsFrom (x : Expander) (nested : Nested) (d : Deployment) (l : Ledger) (dependsOn : List String)
    (decl : ResourceDeclaration) (i : Nat) (s : Scope) (inst : Instance) : Prop :=
  match decl.copy with
  | none => ∃ t, outcome (x.expandInstance nested d l dependsOn decl none) s = (.ok inst, t)
  | some copy => (∃ loops, s.loops = (copy.name, (i : Int)) :: loops) ∧
      ∃ t, outcome (x.expandInstance nested d l dependsOn decl (some i)) s = (.ok inst, t)

theorem ExpandsFrom.outcome {l : Ledger} {dependsOn : List String} {decl : ResourceDeclaration} {i : Nat}
    {s : Scope} {inst : Instance} (h : ExpandsFrom x nested d l dependsOn decl i s inst) :
    ∃ index t, outcome (x.expandInstance nested d l dependsOn decl index) s = (.ok inst, t) := by
  unfold ExpandsFrom at h
  split at h
  · exact ⟨_, h⟩
  · exact ⟨_, h.2⟩

/-- Whether instances are all those of a declaration: one, or one for each index of its loop in turn. -/
def Complete (x : Expander) (nested : Nested) (d : Deployment) (l : Ledger) (dependsOn : List String)
    (decl : ResourceDeclaration) (instances : List Instance) : Prop :=
  match decl.copy with
  | none => instances.length = 1
  | some copy => Iterated x nested d l dependsOn decl copy instances

section
variable {decl : ResourceDeclaration} {p : Progress} {instances : List Instance} {s : Scope}
  (h : x.attempt nested d plan decl p = (.ok instances, s))
include h

theorem complete_of_attempt :
    Complete x nested d p.ledger (awaitedIds plan p decl) decl instances := by
  unfold Complete
  split
  · rename_i hcopy
    unfold attempt expandInstances at h
    rw [hcopy] at h
    obtain ⟨i, t, -, h⟩ := outcome_bind_eq_ok.mp h
    cases h
    rfl
  · rename_i copy hcopy
    exact iterated_of_attempt hcopy h

theorem exists_expandsFrom {i : Nat} {inst : Instance} (hi : instances[i]? = some inst) :
    ∃ t, ExpandsFrom x nested d p.ledger (awaitedIds plan p decl) decl i t inst := by
  unfold ExpandsFrom
  split
  · rename_i hcopy
    unfold attempt expandInstances at h
    rw [hcopy] at h
    obtain ⟨only, t, ho, h⟩ := outcome_bind_eq_ok.mp h
    obtain rfl : instances = [only] := by cases h; rfl
    obtain rfl := List.mem_singleton.mp (List.mem_of_getElem? hi)
    exact ⟨p.scope, t, ho⟩
  · rename_i copy hcopy
    obtain ⟨-, t, u, ho⟩ := (iterated_of_attempt hcopy h).instance_at i inst hi
    rw [ScopeM.outcome_withLoop, Prod.mk.injEq] at ho
    exact ⟨_, ⟨_, rfl⟩, _, Prod.ext ho.1 rfl⟩

end

/-- The blocks of a declaration stand in the order of their indices, each of which is there once. -/
theorem Complete.pairwise {l : Ledger} {dependsOn : List String} {decl : ResourceDeclaration}
    {instances : List Instance} (h : Complete x nested d l dependsOn decl instances) :
    (instances.filterMap Instance.block?).Pairwise
      fun a b => Precedes a.own.copyIndex b.own.copyIndex := by
  rw [List.pairwise_filterMap, List.pairwise_iff_getElem]
  intro i j hi hj hij b hb c hc
  unfold Complete at h
  split at h
  · omega
  · have hat (k : Nat) (hk : k < instances.length) : instances[k].At k :=
      (h.instance_at k _ (List.getElem?_eq_getElem hk)).1
    exact ⟨i, j, Instance.At.copyIndex (hat i hi) hb, Instance.At.copyIndex (hat j hj) hc, by omega⟩

/-! Nested deployments. -/

def withInline (body : Entries Json) : Option Json → Entries Json
  | some template => setProperty body "template" template
  | none => body

/-- The template of a deployment resource: the inline one, else the one that its body links to, or why there is
none. -/
def availableTemplate (x : Expander) (body : Entries Json) : Option Json → Except String Json
  | some template => .ok template
  | none => x.linkedTemplate body

/-- Whether the declaration of a deployment resource, whose condition holds, is evaluated from this scope to the
body of a resource with this identity, and with a template or a reason why it has none. The inline template is
not evaluated. -/
def Presents (x : Expander) (d : Deployment) (l : Ledger) (decl : ResourceDeclaration) (s : Scope)
    (identity : ResourceIdentity) (body : Entries Json) (template : Except String Json) : Prop :=
  ∃ evaluated t u,
    outcome (holds d l (decl.pointer ++ "/condition") decl.condition) s = (.ok true, t) ∧
    outcome (d.evalObject l decl.pointer (takeTemplate decl.body).1) t = (.ok evaluated, u) ∧
    d.identityOf decl evaluated = .ok identity ∧
    body = withInline evaluated (takeTemplate decl.body).2 ∧
    template = x.availableTemplate body (takeTemplate decl.body).2

/-- Deployments that stem from a deployment resource: children of its template, with the surroundings and the
values that its body tells; or none, if the template cannot be had. -/
def StemsFrom (x : Expander)
    (child : Template → DeploymentIdentity → Entries Json → ExpandedDeployment → Prop)
    (d : Deployment) (l : Ledger) (decl : ResourceDeclaration) (s : Scope) (identity : ResourceIdentity) :
    Option ExpandedDeployment → Prop
  | none => ∃ body reason, x.Presents d l decl s identity body (.error reason)
  | some e => ∃ body template t, x.Presents d l decl s identity body (.ok template) ∧
      Template.ofJson template = .ok t ∧
      child t (nestedIdentity d.identity identity.name body t.scopeLevel) (suppliedBy body) e

/-- Whether a block is what a declaration expands to at an index, from this scope. What is nested in it stems
from the same evaluation of its declaration. -/
structure Block.Stems (x : Expander) (nested : Nested)
    (child : Template → DeploymentIdentity → Entries Json → ExpandedDeployment → Prop)
    (d : Deployment) (l : Ledger) (dependsOn : List String) (decl : ResourceDeclaration) (i : Nat)
    (s : Scope) (b : Block) : Prop where
  expands : ExpandsFrom x nested d l dependsOn decl i s (.emitted b.own b.child)
  deployment : isDeployment decl = true → x.StemsFrom child d l decl s b.own.identity b.child
  other : isDeployment decl = false → b.child = none

/-- What a turn commits: all instances that one attempt at a declaration gives, in the order of their indices,
and with each that is emitted what its template expands to. -/
structure Commits (x : Expander) (nested : Nested)
    (child : Template → DeploymentIdentity → Entries Json → ExpandedDeployment → Prop)
    (d : Deployment) (plan : Plan) (p : Progress) (decl : ResourceDeclaration)
    (instances : List Instance) : Prop where
  attempt : ∃ s, x.attempt nested d plan decl p = (.ok instances, s)
  complete : Complete x nested d p.ledger (awaitedIds plan p decl) decl instances
  blocks : ∀ (i : Nat) inst b, instances[i]? = some inst → inst.block? = some b →
    ∃ s, Block.Stems x nested child d p.ledger (awaitedIds plan p decl) decl i s b

section
variable {child other : Template → DeploymentIdentity → Entries Json → ExpandedDeployment → Prop}
  (hmono : ∀ v t identity values e, Template.ofJson v = .ok t → child t identity values e →
    other t identity values e) {decl : ResourceDeclaration}
include hmono

theorem Block.Stems.mono {l : Ledger} {dependsOn : List String} {i : Nat} {s : Scope} {b : Block}
    (h : Block.Stems x nested child d l dependsOn decl i s b) :
    Block.Stems x nested other d l dependsOn decl i s b := by
  refine { h with deployment := fun hd => ?_ }
  have hs := h.deployment hd
  unfold StemsFrom at hs ⊢
  split at hs
  · exact hs
  · obtain ⟨body, template, t, hp, ht, hc⟩ := hs
    exact ⟨body, template, t, hp, ht, hmono _ _ _ _ _ ht hc⟩

theorem Commits.mono {p : Progress} {instances : List Instance}
    (h : Commits x nested child d plan p decl instances) :
    Commits x nested other d plan p decl instances := by
  refine { h with blocks := fun i inst b hi hb => ?_ }
  obtain ⟨s, hs⟩ := h.blocks i inst b hi hb
  exact ⟨s, hs.mono hmono⟩

end

def ExpandsTo (nested : Nested) (t : Template) (identity : DeploymentIdentity) (values : Entries Json)
    (e : ExpandedDeployment) : Prop :=
  ∃ log log', nested t identity values log = (.ok e, log')

/-- The template of a deployment resource is had without a trace, or there is none. -/
theorem outcome_templateOf (x : Expander) (d : Deployment) (decl : ResourceDeclaration) (name : String)
    (body : Entries Json) (inline : Option Json) (s : Scope) :
    (∃ template, x.availableTemplate body inline = .ok template ∧
        outcome (x.templateOf d decl name body inline) s = (.ok (some template), s)) ∨
      ∃ reason u, x.availableTemplate body inline = .error reason ∧
        outcome (x.templateOf d decl name body inline) s = (.ok none, u) := by
  unfold templateOf availableTemplate
  cases inline with
  | some template => exact .inl ⟨template, rfl, rfl⟩
  | none =>
    cases x.linkedTemplate body with
    | ok template => exact .inl ⟨template, rfl, rfl⟩
    | error reason => exact .inr ⟨reason, _, rfl, rfl⟩

def Nests (x : Expander) (nested : Nested) (d : Deployment) (identity : ResourceIdentity) (body : Entries Json)
    (inline : Option Json) (e : ExpandedDeployment) : Prop :=
  ∃ template t, x.availableTemplate body inline = .ok template ∧ Template.ofJson template = .ok t ∧
    ExpandsTo nested t (nestedIdentity d.identity identity.name body t.scopeLevel) (suppliedBy body) e

/-- What is nested in a deployment resource is what is answered for its template, after what was reported before. -/
theorem expandNested_answered {decl : ResourceDeclaration} {identity : ResourceIdentity} {evaluated body : Entries Json}
    {inline : Option Json} {inner : Option ExpandedDeployment} {s t : Scope}
    (h : outcome (x.expandNested nested d decl identity evaluated inline) s = (.ok (body, inner), t)) :
    (inner = none ∧ body = withInline evaluated inline ∧ ∃ reason, x.availableTemplate body inline = .error reason) ∨
      ∃ e template t log, inner = some e ∧
        body = setProperty (withInline evaluated inline) "outputs" (outputsJson e.outputs) ∧
        x.availableTemplate (withInline evaluated inline) inline = .ok template ∧ Template.ofJson template = .ok t ∧
        nested t (nestedIdentity d.identity identity.name (withInline evaluated inline) t.scopeLevel)
          (suppliedBy (withInline evaluated inline)) s.log = (.ok e, log) := by
  unfold expandNested at h
  extract_lets full at h
  have hfull : full = withInline evaluated inline := by
    unfold full withInline
    cases inline <;> rfl
  clear_value full
  subst hfull
  obtain ⟨template, ha, ho⟩ | ⟨reason, w, ha, ho⟩ :=
    x.outcome_templateOf d decl identity.name (withInline evaluated inline) inline s
  · rw [outcome_bind, ho] at h
    obtain ⟨⟨_, e⟩, _, h, hr⟩ := outcome_bind_eq_ok.mp h
    cases hr
    unfold expandTemplate at h
    obtain ⟨t', _, ht, h⟩ := outcome_bind_eq_ok.mp h
    rw [ScopeM.outcome_lift, Prod.mk.injEq] at ht
    obtain ⟨ht, rfl⟩ := ht
    obtain ⟨_, w, hrun, h⟩ := outcome_bind_eq_ok.mp h
    cases h
    have hrun : (nested t' (nestedIdentity d.identity identity.name (withInline evaluated inline) t'.scopeLevel)
        (suppliedBy (withInline evaluated inline)) s.log).1 = .ok e := congrArg Prod.fst hrun
    exact .inr ⟨e, template, t', _, rfl, rfl, ha, ht, Prod.ext hrun rfl⟩
  · rw [outcome_bind, ho] at h
    cases h
    exact .inl ⟨rfl, rfl, reason, ha⟩

/-- The body of a deployment resource has its inline template put back, and the outputs of what its template expands
to if it can be had. -/
theorem expandNested_ok {decl : ResourceDeclaration} {identity : ResourceIdentity} {evaluated body : Entries Json}
    {inline : Option Json} {inner : Option ExpandedDeployment} {s t : Scope}
    (h : outcome (x.expandNested nested d decl identity evaluated inline) s = (.ok (body, inner), t)) :
    (inner = none ∧ body = withInline evaluated inline ∧ ∃ reason, x.availableTemplate body inline = .error reason) ∨
      ∃ e, inner = some e ∧ body = setProperty (withInline evaluated inline) "outputs" (outputsJson e.outputs) ∧
        x.Nests nested d identity (withInline evaluated inline) inline e := by
  rcases expandNested_answered h with hnone | ⟨e, template, t', log, hinner, hbody, ha, ht, hn⟩
  · exact .inl hnone
  · exact .inr ⟨e, hinner, hbody, template, t', ha, ht, _, _, hn⟩

theorem expandNested_stems {l : Ledger} {decl : ResourceDeclaration} {identity : ResourceIdentity}
    {evaluated body : Entries Json} {inner : Option ExpandedDeployment} {s t u v : Scope}
    (hc : outcome (holds d l (decl.pointer ++ "/condition") decl.condition) s = (.ok true, t))
    (he : outcome (d.evalObject l decl.pointer (takeTemplate decl.body).1) t = (.ok evaluated, u))
    (hi : d.identityOf decl evaluated = .ok identity)
    (hn : outcome (x.expandNested nested d decl identity evaluated (takeTemplate decl.body).2) u =
      (.ok (body, inner), v)) :
    x.StemsFrom (ExpandsTo nested) d l decl s identity inner := by
  rcases expandNested_ok hn with ⟨rfl, rfl, reason, ha⟩ | ⟨e, rfl, -, template, t', ha, ht, hx⟩
  · exact ⟨_, reason, evaluated, t, u, hc, he, hi, rfl, ha.symm⟩
  · exact ⟨_, template, t', ⟨evaluated, t, u, hc, he, hi, rfl, ha.symm⟩, ht, hx⟩

/-- What is nested in an emitted instance stems from the evaluation that the instance is made of. -/
theorem expandInstance_stems {l : Ledger} {dependsOn : List String} {decl : ResourceDeclaration}
    {index : Option Nat} {r : ResourceValue} {inner : Option ExpandedDeployment} {s u : Scope}
    (h : outcome (x.expandInstance nested d l dependsOn decl index) s = (.ok (.emitted r inner), u)) :
    (isDeployment decl = true → x.StemsFrom (ExpandsTo nested) d l decl s r.identity inner) ∧
      (isDeployment decl = false → inner = none) := by
  unfold expandInstance at h
  obtain ⟨b, t, hc, h⟩ := outcome_bind_eq_ok.mp h
  cases b with
  | false =>
    obtain ⟨_, _, -, h⟩ := outcome_bind_eq_ok.mp h
    cases h
  | true =>
    rw [if_pos rfl] at h
    unfold expandActive at h
    cases hd : isDeployment decl with
    | true =>
      simp only [hd, if_true] at h
      obtain ⟨evaluated, v, he, h⟩ := outcome_bind_eq_ok.mp h
      obtain ⟨identity, w, hi, h⟩ := outcome_bind_eq_ok.mp h
      rw [ScopeM.outcome_lift, Prod.mk.injEq] at hi
      obtain ⟨hi, rfl⟩ := hi
      split at h
      · cases h
      · obtain ⟨⟨body, expanded⟩, _, hn, h⟩ := outcome_bind_eq_ok.mp h
        obtain ⟨_, _, -, h⟩ := outcome_bind_eq_ok.mp h
        cases h
        exact ⟨fun _ => expandNested_stems hc he hi hn, fun ho => (by cases ho)⟩
    | false =>
      simp only [hd] at h
      obtain ⟨evaluated, v, -, h⟩ := outcome_bind_eq_ok.mp h
      obtain ⟨identity, w, -, h⟩ := outcome_bind_eq_ok.mp h
      split at h
      · cases h
      · obtain ⟨⟨body, expanded⟩, _, hn, h⟩ := outcome_bind_eq_ok.mp h
        obtain ⟨_, _, -, h⟩ := outcome_bind_eq_ok.mp h
        cases h
        cases hn
        exact ⟨fun ho => (by cases ho), fun _ => rfl⟩

/-- What one attempt gives and a turn commits stems from it, instance by instance. -/
theorem commits_of_attempt {decl : ResourceDeclaration} {p : Progress} {instances : List Instance}
    {s : Scope} (h : x.attempt nested d plan decl p = (.ok instances, s)) :
    Commits x nested (ExpandsTo nested) d plan p decl instances where
  attempt := ⟨s, h⟩
  complete := complete_of_attempt h
  blocks i inst b hi hb := by
    cases inst with
    | existing r => cases hb
    | skipped id => cases hb
    | emitted r inner =>
      cases hb
      obtain ⟨t, ht⟩ := exists_expandsFrom h hi
      obtain ⟨index, u, hu⟩ := ht.outcome
      obtain ⟨hd, ho⟩ := expandInstance_stems hu
      exact ⟨t, ht, hd, ho⟩

/-! Runs. -/

namespace Run

variable {depth : Nat}

/-- Whether a run gives an expansion block by block. Each declaration is settled once; what it emits comes of
one attempt, that of the turn that commits it, all of its instances in the order of their indices. The resources
of the run's own deployment, as references find them, are those that the blocks begin with. Nothing else is
emitted, bound or recorded, and nothing of what was expanded for turns that commit nothing. -/
structure Assembles (run : Run x depth)
    (child : Template → DeploymentIdentity → Entries Json → ExpandedDeployment → Prop)
    (e : ExpandedDeployment) : Prop where
  once : run.history.ordinals.Perm (List.range run.deployment.template.resources.length)
  states : ∀ c ∈ run.history, run.final.ledger.state c.ordinal = c.state ∧
    (c.blocks ≠ [] → c.state = .expanded)
  commits : ∀ (before : Trace) step after decl instances, run.trace = before ++ step :: after →
    step.settled? = some (.committed decl instances) →
    Commits x (x.nestedAt depth) child run.deployment run.plan (before.after run.start) decl instances
  ascending : ∀ c ∈ run.history,
    c.blocks.Pairwise fun a b => Precedes a.own.copyIndex b.own.copyIndex
  resources : e.resources = run.history.blocks.flatMap Block.resources
  own : run.final.ledger.resources = run.history.blocks.map Block.own
  symbols : ∀ name, e.symbols.getIds name = run.history.boundIds name
  failures : ∃ others, e.failures = run.history.failures run.deployment.identity.name ++ others ∧
    ∀ f ∈ others, f.deployment = run.deployment.identity.name ∧
      ∃ o ∈ run.deployment.template.outputs, f.subject = .output o.name
  idle : ∀ (before : Trace) step after, run.trace = before ++ step :: after →
    (∀ decl instances, step.settled? ≠ some (.committed decl instances)) →
    LeavesNothing run.deployment.identity.name (before.after run.start) step

theorem attempted (run : Run x depth) {decl : ResourceDeclaration} {instances : List Instance}
    (h : .committed decl instances ∈ run.history) :
    ∃ p s, x.attempt (x.nestedAt depth) run.deployment run.plan decl p = (.ok instances, s) :=
  run.reached.attempted h

theorem assembles (run : Run x depth) {outputs : Entries Json} {p : Progress}
    (h : outcome (evalOutputs run.deployment [] run.deployment.template.outputs) run.final =
      (.ok outputs, p)) :
    run.Assembles (ExpandsTo (x.nestedAt depth)) (p.result run.deployment.identity.name outputs) where
  once := run.settled_once
  states c hc := ⟨run.recorded.state_of_mem hc, Settlement.state_of_blocks⟩
  commits before step after decl instances ht hc := by
    obtain ⟨decl', r, hturn, hs⟩ := run.loop.turn_at ht
    rw [hc] at hs
    generalize step.after = q at hturn
    cases hturn with
    | commits instances' s q hr ha =>
      cases hs
      exact commits_of_attempt ha
    | _ => cases hs
  ascending c hc := by
    cases c with
    | failed decl error => exact .nil
    | committed decl instances =>
      obtain ⟨p, s, ha⟩ := run.attempted hc
      exact (complete_of_attempt ha).pairwise
  resources := by
    rw [(run.gives_result h).resources, run.records.emitted, Instance.flatMap_block,
      History.filterMap_block?]
  own := by rw [run.records.resources, Instance.flatMap_resources, History.filterMap_block?]
  symbols := by
    rw [(run.gives_result h).symbols]
    exact run.records.bound
  failures := by
    obtain ⟨others, hf, hothers⟩ := evalOutputs_failures h
    rw [← run.failures]
    exact ⟨others, hf, hothers⟩
  idle before step after ht hc := by
    obtain ⟨decl, r, hturn, hs⟩ := run.loop.turn_at ht
    obtain ⟨settled?, q⟩ := step
    cases hs
    exact hturn.leavesNothing hc

theorem Assembles.mono {run : Run x depth}
    {child other : Template → DeploymentIdentity → Entries Json → ExpandedDeployment → Prop}
    (hmono : ∀ v t identity values e, Template.ofJson v = .ok t → child t identity values e →
      other t identity values e) {e : ExpandedDeployment} (h : run.Assembles child e) :
    run.Assembles other e :=
  { h with commits := fun before step after decl instances ht hc =>
      (h.commits before step after decl instances ht hc).mono hmono }

end Run

/-- Whether an expansion of a template is assembled of blocks, and so is what each nested deployment in them
expanded to. -/
def Assembled (x : Expander) :
    (depth : Nat) → Template → DeploymentIdentity → Entries Json → ExpandedDeployment → Prop
  | 0, t, identity, values, e => ∃ (run : Run x 0) (log : List Diagnostic),
      outcome (Deployment.create t x.options identity values) { log } =
        (.ok run.deployment, run.scope) ∧
      run.Assembles (fun _ _ _ _ => False) e
  | depth + 1, t, identity, values, e => ∃ (run : Run x (depth + 1)) (log : List Diagnostic),
      outcome (Deployment.create t x.options identity values) { log } =
        (.ok run.deployment, run.scope) ∧
      run.Assembles (x.Assembled depth) e

/-- Whatever expands is assembled of one block for each instance that its declarations emitted, however many
passes that takes and however deep deployments are nested: no resource is lost by what is tried again, and none
is there twice. -/
theorem expandAt_assembled {depth : Nat} {v : Json} {t : Template} {identity : DeploymentIdentity}
    {values : Entries Json} {log log' : List Diagnostic} {e : ExpandedDeployment}
    (ht : Template.ofJson v = .ok t) (h : x.expandAt depth t identity values log = (.ok e, log')) :
    x.Assembled depth t identity values e := by
  induction depth generalizing v t identity values log log' e with
  | zero =>
    obtain ⟨run, hc, outputs, p, ho, rfl⟩ := expandAt_evaluated ht h
    obtain ⟨rfl, rfl, -⟩ := create_ok hc
    refine ⟨run, log, hc, (run.assembles ho).mono ?_⟩
    -- all that would be nested here is refused
    rintro v t identity values e - ⟨log, log', he⟩
    cases he
  | succ depth ih =>
    obtain ⟨run, hc, outputs, p, ho, rfl⟩ := expandAt_evaluated ht h
    obtain ⟨rfl, rfl, -⟩ := create_ok hc
    refine ⟨run, log, hc, (run.assembles ho).mono ?_⟩
    rintro v t identity values e hv ⟨log, log', he⟩
    exact ih hv he

/-- Two nested deployments in a loop, the second of which refers to a resource that is declared later. -/
def deferredLoop : Json := .obj
  [("resources", .arr
    [.obj [("type", .str ResourceId.deploymentType),
      ("name", .str "[concat('d', copyIndex())]"),
      ("copy", .obj [("name", .str "c"), ("count", .num (.int 2))]),
      ("tags", .str "[if(equals(copyIndex(), 1), reference('y'), 0)]"),
      ("properties", .obj [("template", .obj
        [("resources", .arr [.obj [("type", .str "A/b"), ("name", .str "z")]])])])],
     .obj [("type", .str "A/b"), ("name", .str "y")]])]

/-- The first deployment is expanded in both passes and emitted in the second alone. -/
theorem expandAt_assembled_deferredLoop :
    ∃ t e log, Template.ofJson deferredLoop = .ok t ∧
      small.expandAt 1 t (.root small.options t.scopeLevel) [] [] = (.ok e, log) ∧
      e.resources.map (fun r => r.identity.name) = ["y", "d0", "z", "d1", "z"] ∧
      small.Assembled 1 t (.root small.options t.scopeLevel) [] e := by
  have hc : (Template.ofJson deferredLoop).toOption.any fun t =>
      (small.expandAt 1 t (.root small.options t.scopeLevel) [] []).1.toOption.any fun e =>
        e.resources.map (fun r => r.identity.name) = ["y", "d0", "z", "d1", "z"] := by
    decide +kernel
  obtain ⟨t, ht, hc⟩ := (Option.any_eq_true _ _).mp hc
  obtain ⟨e, he, hr⟩ := (Option.any_eq_true _ _).mp hc
  have ht' := toOption_eq_some.mp ht
  have he' : small.expandAt 1 t (.root small.options t.scopeLevel) [] [] = (.ok e, _) :=
    Prod.ext (toOption_eq_some.mp he) rfl
  exact ⟨t, e, _, ht', he', of_decide_eq_true hr, expandAt_assembled ht' he'⟩

end Expander
end ResourceTemplate
