import Mathlib.Data.List.Nodup
import ResourceTemplate.Proofs.Expander.Preparation

namespace ResourceTemplate

theorem Settlement.state_ne_pending (e : Settlement) : e.state ≠ .pending := by
  cases e with
  | failed decl error => simp
  | committed decl instances =>
    simp only [Settlement.state, Progress.stateOf]
    split <;> simp

abbrev History := List Settlement

namespace History

def ordinals (h : History) : List Nat := h.map Settlement.ordinal

def instances (h : History) : List Instance := h.flatMap Settlement.instances

/-- The resources that were emitted, without those of nested deployments. -/
def resources (h : History) : List ResourceValue := h.instances.flatMap Instance.resources

def at? (h : History) (ordinal : Nat) : Option Settlement :=
  h.find? fun e => e.ordinal == ordinal

def only (h : History) (ordinal : Nat) : History := h.filter fun e => e.ordinal == ordinal

def idsOf (h : History) (ordinal : Nat) : List String :=
  (h.only ordinal).resources.map (·.identity.id)

@[simp] theorem instances_append (h k : History) :
    instances (h ++ k) = h.instances ++ k.instances := List.flatMap_append

theorem only_of_notMem {h : History} {o : Nat} (ho : o ∉ h.ordinals) : h.only o = [] := by
  unfold only
  rw [List.filter_eq_nil_iff]
  intro e he heq
  exact ho (List.mem_map.mpr ⟨e, he, beq_iff_eq.mp heq⟩)

/-- What is settled later adds nothing to the ids of a declaration that it is not about. -/
theorem idsOf_append_of_notMem (h : History) {k : History} {o : Nat} (ho : o ∉ k.ordinals) :
    idsOf (h ++ k) o = h.idsOf o := by
  have hk : k.only o = [] := only_of_notMem ho
  unfold idsOf
  rw [only, List.filter_append]
  change ((h.only o ++ k.only o).resources.map _) = _
  rw [hk, List.append_nil]

end History

namespace Expander

variable {x : Expander} {nested : Nested} {d : Deployment} {plan : Plan} {p₀ : Progress}

/-- The progress that an expansion can reach by turns, in whatever order pending declarations are
tried, with the history that leads there. -/
inductive Reached (x : Expander) (nested : Nested) (d : Deployment) (plan : Plan) (p₀ : Progress) :
    History → Progress → Prop where
  | start : Reached x nested d plan p₀ [] p₀
  | turn {h : History} {p q : Progress} {decl : ResourceDeclaration} {r : Option Settlement}
      (hp : Reached x nested d plan p₀ h p) (hd : decl ∈ d.template.resources)
      (hs : p.ledger.state decl.ordinal = .pending)
      (ht : Turn x nested d plan decl p (.ok r) q) : Reached x nested d plan p₀ (h ++ r.toList) q
  | ends {h : History} {p q : Progress} {decl : ResourceDeclaration} {e : ExpandError}
      (hp : Reached x nested d plan p₀ h p) (hd : decl ∈ d.template.resources)
      (hs : p.ledger.state decl.ordinal = .pending)
      (ht : Turn x nested d plan decl p (.error e) q) : Reached x nested d plan p₀ h q

/-- A turn changes nothing but the scope, or settles its declaration. -/
theorem Turn.changes {decl : ResourceDeclaration} {p q : Progress} {r : Option Settlement}
    (h : Turn x nested d plan decl p (.ok r) q) :
    (r = none ∧ q = { p with scope := q.scope }) ∨
      ∃ e, r = some e ∧ e.declaration = decl ∧
        Progress.Settled decl.ordinal e.state e.instances p q := by
  cases h with
  | waits h => exact .inl ⟨rfl, rfl⟩
  | refers e s hr ha hs hu => exact .inl ⟨rfl, rfl⟩
  | dependencyFailed dependency h =>
    exact .inr ⟨_, rfl, rfl, Progress.fail_settled d decl _ p⟩
  | commits instances s q hr ha hc =>
    have h := Progress.commit_settled hc
    exact .inr ⟨_, rfl, rfl, h.1, h.2, h.3, h.4, h.5, h.6, h.7, h.8, h.9⟩
  | fails e s hr ha hs hu =>
    have h := Progress.fail_settled d decl e { p with scope := s }
    exact .inr ⟨_, rfl, rfl, h.1, h.2, h.3, h.4, h.5, h.6, h.7, h.8, h.9⟩

structure Recorded (d : Deployment) (known : List KnownIdentity) (h : History) (p : Progress) :
    Prop where
  declarations : p.ledger.declarations = d.template.resources
  known : p.ledger.known = known
  declared : ∀ e ∈ h, e.declaration ∈ d.template.resources
  once : h.ordinals.Nodup
  size : p.ledger.states.length = d.template.resources.length
  states : ∀ o, p.ledger.state o = ((h.at? o).map Settlement.state).getD .pending
  resources : p.ledger.resources = h.resources
  existing : p.ledger.existing = h.instances.flatMap Instance.existingResources
  skipped : p.ledger.skipped = h.instances.flatMap Instance.skippedIds
  emitted : p.emitted = h.instances.flatMap Instance.block
  idsSize : p.instanceIds.length = d.template.resources.length
  ids : ∀ o, p.idsOf o = h.idsOf o

namespace Recorded

variable {known : List KnownIdentity} {h : History} {p : Progress}

theorem mem_ordinals_iff (hr : Recorded d known h p) (o : Nat) :
    o ∈ h.ordinals ↔ p.ledger.state o ≠ .pending := by
  rw [hr.states o]
  unfold History.at? History.ordinals
  cases hf : h.find? fun e => e.ordinal == o with
  | none =>
    rw [List.find?_eq_none] at hf
    simpa using hf
  | some e =>
    have he : e.ordinal = o := by simpa using List.find?_some hf
    have hm : e ∈ h := List.mem_of_find?_eq_some hf
    simp only [List.mem_map, Option.map_some, Option.getD_some]
    exact ⟨fun _ => e.state_ne_pending, fun _ => ⟨e, hm, he⟩⟩

theorem state_of_mem (hr : Recorded d known h p) {e : Settlement} (he : e ∈ h) :
    p.ledger.state e.ordinal = e.state := by
  rw [hr.states]
  unfold History.at?
  cases hf : h.find? fun e' => e'.ordinal == e.ordinal with
  | none =>
    rw [List.find?_eq_none] at hf
    exact absurd (beq_self_eq_true e.ordinal) (hf e he)
  | some e' =>
    have ho : e'.ordinal = e.ordinal := by simpa using List.find?_some hf
    rw [List.inj_on_of_nodup_map hr.once (List.mem_of_find?_eq_some hf) he ho]
    rfl

/-- A declaration of a history is settled there once. -/
theorem only_of_mem (hr : Recorded d known h p) {e : Settlement} (he : e ∈ h) :
    h.only e.ordinal = [e] := by
  obtain ⟨before, after, rfl⟩ := List.append_of_mem he
  have honce := hr.once
  unfold History.ordinals at honce
  rw [List.map_append, List.map_cons, List.nodup_append, List.nodup_cons] at honce
  obtain ⟨-, ⟨hafter, -⟩, hbefore⟩ := honce
  have hb : History.only before e.ordinal = [] :=
    History.only_of_notMem fun hm => hbefore _ hm _ List.mem_cons_self rfl
  have ha : History.only after e.ordinal = [] := History.only_of_notMem hafter
  unfold History.only at ha hb ⊢
  rw [List.filter_append, List.filter_cons_of_pos (by simp), hb, ha, List.nil_append]

theorem scope (hr : Recorded d known h p) (s : Scope) : Recorded d known h { p with scope := s } :=
  ⟨hr.1, hr.2, hr.3, hr.4, hr.5, hr.6, hr.7, hr.8, hr.9, hr.10, hr.11, hr.12⟩

end Recorded

theorem Unsettled.recorded (h : Unsettled d p₀) : Recorded d p₀.ledger.known [] p₀ where
  declarations := h.declarations
  known := rfl
  declared := by simp
  once := List.nodup_nil
  size := by simp [h.states]
  states o := by
    simp only [Ledger.state, h.states, History.at?, List.find?_nil, Option.map_none,
      Option.getD_none, List.getElem?_map]
    cases d.template.resources[o]? <;> rfl
  resources := h.resources
  existing := h.existing
  skipped := h.skipped
  emitted := h.emitted
  idsSize := by simp [h.instanceIds]
  ids o := by
    simp only [Progress.idsOf, h.instanceIds, List.getElem?_map]
    cases d.template.resources[o]? <;> rfl

theorem Recorded.settle {known : List KnownIdentity} {h : History} {p q : Progress} {e : Settlement}
    (hr : Recorded d known h p) (hd : e.declaration ∈ d.template.resources)
    (ho : e.ordinal < d.template.resources.length) (hp : p.ledger.state e.ordinal = .pending)
    (hs : Progress.Settled e.ordinal e.state e.instances p q) : Recorded d known (h ++ [e]) q where
  declarations := hs.declarations.trans hr.declarations
  known := hs.known.trans hr.known
  declared e' he := by
    rcases List.mem_append.mp he with hm | hm
    · exact hr.declared e' hm
    · rw [List.mem_singleton.mp hm]
      exact hd
  once := by
    have hn : e.ordinal ∉ h.ordinals := fun hm => (hr.mem_ordinals_iff _).mp hm hp
    unfold History.ordinals at *
    rw [List.map_append, List.nodup_append]
    refine ⟨hr.once, by simp, ?_⟩
    intro i hi j hj hij
    simp only [List.map_cons, List.map_nil, List.mem_singleton] at hj
    rw [hij, hj] at hi
    exact hn hi
  size := by rw [hs.states, List.length_set, hr.size]
  states o := by
    have hl : e.ordinal < p.ledger.states.length := hr.size ▸ ho
    have hf : ((h ++ [e]).find? fun e => e.ordinal == o) =
        (h.at? o).or (if e.ordinal = o then some e else none) := by
      rw [List.find?_append, List.find?_singleton]
      simp [History.at?]
    unfold Ledger.state History.at?
    rw [hs.states, hf]
    by_cases he : e.ordinal = o
    · subst he
      -- it is pending, so the history says nothing of it yet
      have hn : h.at? e.ordinal = none := by
        cases ha : h.at? e.ordinal with
        | none => rfl
        | some e' =>
          rw [hr.states, ha] at hp
          exact absurd hp e'.state_ne_pending
      simp [List.getElem?_set_self hl, hn]
    · rw [List.getElem?_set_ne he, if_neg he, Option.or_none]
      exact hr.states o
  resources := by rw [hs.resources, hr.resources]; simp [History.resources, History.instances]
  existing := by rw [hs.existing, hr.existing]; simp [History.instances]
  skipped := by rw [hs.skipped, hr.skipped]; simp [History.instances]
  emitted := by rw [hs.emitted, hr.emitted]; simp [History.instances]
  idsSize := hs.size.trans hr.idsSize
  ids o := by
    rw [hs.ids o (hr.idsSize ▸ ho), hr.ids o]
    by_cases he : o = e.ordinal
    · simp [History.idsOf, History.only, History.resources, History.instances, he]
    · simp [History.idsOf, History.only, he, Ne.symm he]

theorem Reached.recorded {h : History} {p : Progress} (h₀ : Unsettled d p₀)
    (hr : Reached x nested d plan p₀ h p) : Recorded d p₀.ledger.known h p := by
  induction hr with
  | start => exact h₀.recorded
  | @turn h p q decl r hp hd hs ht ih =>
    rcases ht.changes with ⟨rfl, hq⟩ | ⟨e, rfl, rfl, he⟩
    · rw [hq, Option.toList_none, List.append_nil]
      exact ih.scope _
    · have ho : e.ordinal < d.template.resources.length :=
        (List.getElem?_eq_some_iff.mp (h₀.numbered.getElem? hd)).1
      exact ih.settle hd ho hs he
  | ends hp hd hs ht ih =>
    cases ht
    exact ih.scope _

/-- How a declaration of a history was settled: by a turn, after what was settled before it. -/
theorem Reached.split {h before after : History} {e : Settlement} {q : Progress}
    (hr : Reached x nested d plan p₀ h q) (hh : h = before ++ e :: after) :
    ∃ p m, Reached x nested d plan p₀ before p ∧ e.declaration ∈ d.template.resources ∧
      p.ledger.state e.ordinal = .pending ∧ Turn x nested d plan e.declaration p (.ok (some e)) m := by
  induction hr generalizing after with
  | start => cases before <;> cases hh
  | ends hp hd hs ht ih => exact ih hh
  | @turn h p q decl r hp hd hs ht ih =>
    rcases ht.changes with ⟨rfl, -⟩ | ⟨e', rfl, rfl, -⟩
    · rw [Option.toList_none, List.append_nil] at hh
      exact ih hh
    · -- it is what the last turn settled, or was settled before
      rcases List.eq_nil_or_concat after with rfl | ⟨after', last, rfl⟩
      · obtain ⟨rfl, he⟩ := List.append_inj' hh rfl
        cases he
        exact ⟨p, q, hp, hd, hs, ht⟩
      · rw [List.concat_eq_append, ← List.cons_append, ← List.append_assoc] at hh
        exact ih (List.append_inj' hh rfl).1

/-- A template whose first declaration is committed by the first turn: the deployment, its plan, where it
starts, the declaration, its instances, and the progress after the turn. -/
def firstCommit? (x : Expander) (nested : Nested) (v : Json) :
    Option (Deployment × Plan × Progress × ResourceDeclaration × List Instance × Progress) := do
  let (d, plan, p₀) ← prepared? x.options v
  let decl ← d.template.resources.head?
  let awaited := plan.dependenciesOf decl.ordinal
  if p₀.ledger.state decl.ordinal = .pending ∧ readiness p₀.ledger awaited = .ready then
    match x.attempt nested d plan decl p₀ with
    | (.ok instances, scope) =>
      let p ← (Progress.commit decl instances { p₀ with scope }).toOption
      return (d, plan, p₀, decl, instances, p)
    | (.error _, _) => none
  else none

theorem firstCommit?_eq_some {v : Json} {p : Progress} {decl : ResourceDeclaration}
    {instances : List Instance}
    (h : firstCommit? x nested v = some (d, plan, p₀, decl, instances, p)) :
    Template.ofJson v = .ok d.template ∧
      outcome (prepare d) (.start {} d.template.resources) = (.ok plan, p₀) ∧
      decl ∈ d.template.resources ∧
      Reached x nested d plan p₀ [.committed decl instances] p := by
  unfold firstCommit? at h
  obtain ⟨⟨d', plan', p'⟩, hp, h⟩ := Option.bind_eq_some_iff.mp h
  obtain ⟨decl', hd, h⟩ := Option.bind_eq_some_iff.mp h
  dsimp only at h
  split at h
  · rename_i hs
    split at h
    · rename_i is s ha
      obtain ⟨q, hq, h⟩ := Option.bind_eq_some_iff.mp h
      cases h
      obtain ⟨ht, h₀⟩ := prepared?_eq_some hp
      have hmem := List.mem_of_mem_head? hd
      exact ⟨ht, h₀, hmem,
        .turn .start hmem hs.1 (.commits _ s _ hs.2 ha (toOption_eq_some.mp hq))⟩
    · cases h
  · cases h

def commitsFirst (x : Expander) (v : Json)
    (check : Deployment → ResourceDeclaration → List Instance → Progress → Bool) : Bool :=
  (firstCommit? x x.refuseNested v).any fun (d, _, _, decl, instances, p) => check d decl instances p

theorem exists_of_commitsFirst {v : Json}
    {check : Deployment → ResourceDeclaration → List Instance → Progress → Bool}
    (h : commitsFirst x v check = true) : ∃ d plan p₀ decl instances p,
      Template.ofJson v = .ok d.template ∧
      outcome (prepare d) (.start {} d.template.resources) = (.ok plan, p₀) ∧
      decl ∈ d.template.resources ∧
      Reached x x.refuseNested d plan p₀ [.committed decl instances] p ∧
      check d decl instances p = true := by
  obtain ⟨⟨d, plan, p₀, decl, instances, p⟩, hf, hc⟩ := (Option.any_eq_true _ _).mp h
  obtain ⟨ht, h₀, hd, hr⟩ := firstCommit?_eq_some hf
  exact ⟨d, plan, p₀, decl, instances, p, ht, h₀, hd, hr, hc⟩

end Expander
end ResourceTemplate
