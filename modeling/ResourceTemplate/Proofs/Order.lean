import ResourceTemplate.Proofs.Order.Graph

namespace ResourceTemplate

namespace Order

variable {nodes : List DependencyNode} {i j : Nat}

def missing (nodes : List DependencyNode) (placed : List Nat) (i : Nat) : List Nat :=
  (dependencies nodes i).filter (· ∉ placed)

theorem missing_eq_nil {placed : List Nat} :
    missing nodes placed i = [] ↔ ∀ j, DependsOn nodes i j → j ∈ placed := by
  simp [missing, List.filter_eq_nil_iff, mem_dependencies]

theorem length_filter_notMem_cons {placed : List Nat} (hi : i ∉ placed) (js : List Nat) :
    (js.filter (· ∉ placed)).length = (js.filter (· ∉ i :: placed)).length + js.count i := by
  induction js with
  | nil => rfl
  | cons j js ih =>
    rw [List.filter_cons, List.filter_cons, List.count_cons]
    by_cases hj : j = i
    · subst hj
      simp [hi] at ih ⊢
      omega
    · by_cases hp : j ∈ placed
      · simpa [hj, hp] using ih
      · simp [hj, hp] at ih ⊢
        omega

/-- A node that is placed is missing no more where it was a dependency. -/
theorem length_missing_cons {placed : List Nat} (hi : i ∉ placed) (j : Nat) :
    (missing nodes placed j).length =
      (missing nodes (i :: placed) j).length + (dependents nodes i).count j := by
  have hcount : (dependents nodes i).count j = (dependencies nodes j).count i := by
    have hiff : j ∈ dependents nodes i ↔ i ∈ dependencies nodes j :=
      mem_dependents.trans mem_dependencies.symm
    rw [(nodup_dependents nodes i).count, (nodup_dependencies nodes j).count]
    simp only [hiff]
  rw [hcount]
  exact length_filter_notMem_cons hi _

namespace Run

/-- The states of a run, each with the nodes that are still to be released. -/
inductive Reached (nodes : List DependencyNode) : Run → List Nat → Prop where
  | start : Reached nodes (start nodes) []
  | place {r : Run} {i : Nat} (hr : Reached nodes r []) (hi : first? nodes r.ready = some i) :
      Reached nodes (r.place i) (dependents nodes i)
  | release {r : Run} {i : Nat} {is : List Nat} (hr : Reached nodes r (i :: is)) :
      Reached nodes (r.release i) is

/-- What holds at every moment of a run. Each node waits for its dependencies that are not placed, and
for the one placed last until it is released; the ready nodes are those that wait for none. -/
structure Consistent (nodes : List DependencyNode) (r : Run) (pending : List Nat) : Prop where
  placed : Placed nodes r.placed
  length_waiting : r.waiting.length = nodes.length
  waitsFor : ∀ i < nodes.length,
    r.waitsFor i = (missing nodes r.placed i).length + pending.count i
  nodup_ready : r.ready.Nodup
  mem_ready : ∀ i, i ∈ r.ready ↔ i < nodes.length ∧ i ∉ r.placed ∧ r.waitsFor i = 0
  unplaced : ∀ i ∈ pending, i < nodes.length ∧ i ∉ r.placed
  nodup_pending : pending.Nodup

theorem consistent_start (nodes : List DependencyNode) : Consistent nodes (start nodes) [] where
  placed := trivial
  length_waiting := by simp [start]
  waitsFor i hi := by simp [start, Run.waitsFor, missing, hi]
  nodup_ready := List.nodup_range.filter _
  mem_ready i := by
    simp only [start, List.mem_filter, List.mem_range, Run.waitsFor]
    constructor
    · rintro ⟨hi, hd⟩
      simp_all
    · rintro ⟨hi, -, hw⟩
      simp_all
  unplaced := nofun
  nodup_pending := List.nodup_nil

namespace Consistent

variable {r : Run} {pending : List Nat}

/-- Before anything else is released, the first ready node is one that can come next. -/
theorem next (h : Consistent nodes r []) (hi : first? nodes r.ready = some i) :
    Next nodes r.placed i := by
  have hready : ∀ j < nodes.length, r.waitsFor j = 0 ↔ ∀ k, DependsOn nodes j k → k ∈ r.placed := by
    intro j hj
    rw [h.waitsFor j hj, ← missing_eq_nil, List.count_nil, ← List.length_eq_zero_iff]
    omega
  obtain ⟨hlt, hfresh, hw⟩ := (h.mem_ready i).mp (first?_mem hi)
  refine ⟨hlt, hfresh, (hready i hlt).mp hw, ?_⟩
  intro j hj hjp hd
  exact first?_precedes hi j ((h.mem_ready j).mpr ⟨hj, hjp, (hready j hj).mpr hd⟩)

theorem place (h : Consistent nodes r []) (hi : first? nodes r.ready = some i) :
    Consistent nodes (r.place i) (dependents nodes i) := by
  have hn := h.next hi
  refine ⟨⟨hn, h.placed⟩, h.length_waiting, ?_, h.nodup_ready.erase i, ?_, ?_,
    nodup_dependents nodes i⟩
  · intro j hj
    have hm : (missing nodes r.placed j).length =
        (missing nodes (i :: r.placed) j).length + (dependents nodes i).count j :=
      length_missing_cons hn.fresh j
    have hw := h.waitsFor j hj
    rw [List.count_nil, hm] at hw
    change r.waitsFor j = _
    rw [hw]
    push_cast
    rfl
  · intro j
    change j ∈ r.ready.erase i ↔ j < nodes.length ∧ j ∉ i :: r.placed ∧ r.waitsFor j = 0
    rw [h.nodup_ready.mem_erase_iff, h.mem_ready j, List.mem_cons]
    tauto
  · intro j hj
    have hd := mem_dependents.mp hj
    refine ⟨hd.lt, fun hp => ?_⟩
    -- a node that depends on this one was not placed before it, and is another
    rcases List.mem_cons.mp hp with rfl | hp
    · exact hn.fresh (hn.dependencies j hd)
    · exact hn.fresh (h.placed.mem_of_dependsOn hp hd)

theorem waitsFor_release (h : Consistent nodes r pending) (hi : i < nodes.length) (j : Nat) :
    (r.release i).waitsFor j = if j = i then r.waitsFor i - 1 else r.waitsFor j := by
  have hl : i < r.waiting.length := h.length_waiting ▸ hi
  unfold release Run.waitsFor
  by_cases hj : j = i
  · simp [hj, hl]
  · simp [hj, Ne.symm hj]

theorem release (h : Consistent nodes r (i :: pending)) : Consistent nodes (r.release i) pending := by
  obtain ⟨hlt, hfresh⟩ := h.unplaced i List.mem_cons_self
  obtain ⟨hip, hnodup⟩ := List.nodup_cons.mp h.nodup_pending
  have hw := h.waitsFor_release hlt
  -- it still waits for the dependency that was placed, so that it is not ready yet
  have hpos : r.waitsFor i ≠ 0 := by
    rw [h.waitsFor i hlt, List.count_cons_self]
    omega
  have hready : i ∉ r.ready := fun hi => hpos ((h.mem_ready i).mp hi).2.2
  refine ⟨h.placed, ?_, ?_, ?_, ?_, fun j hj => h.unplaced j (List.mem_cons_of_mem _ hj), hnodup⟩
  · simp [Run.release, h.length_waiting]
  · intro j hj
    have hj := h.waitsFor j hj
    rw [hw j]
    change _ = ((missing nodes r.placed j).length : Int) + _
    by_cases hji : j = i
    · subst hji
      rw [List.count_cons_self] at hj
      rw [if_pos rfl, hj]
      push_cast
      omega
    · rw [if_neg hji, hj, List.count_cons_of_ne (Ne.symm hji)]
  · change (if r.waitsFor i - 1 = 0 then i :: r.ready else r.ready).Nodup
    split
    · exact List.nodup_cons.mpr ⟨hready, h.nodup_ready⟩
    · exact h.nodup_ready
  · intro j
    have hj := h.mem_ready j
    rw [hw j]
    change j ∈ (if r.waitsFor i - 1 = 0 then i :: r.ready else r.ready) ↔
      j < nodes.length ∧ j ∉ r.placed ∧ _
    by_cases hji : j = i
    · subst hji
      split <;> simp_all
    · split <;> simp_all

theorem nonneg (h : Consistent nodes r pending) : ∀ left ∈ r.waiting, 0 ≤ left := by
  intro left hl
  obtain ⟨i, hi, rfl⟩ := List.mem_iff_getElem.mp hl
  have hw := h.waitsFor i (h.length_waiting ▸ hi)
  rw [Run.waitsFor, List.getElem?_eq_getElem hi, Option.getD_some] at hw
  omega

/-- Where no node is ready, each node that is left depends on another that is left. -/
theorem exists_missing (h : Consistent nodes r []) (hr : r.ready = []) (hi : i < nodes.length)
    (hp : i ∉ r.placed) : ∃ j, DependsOn nodes i j ∧ j ∉ r.placed := by
  by_contra hc
  push Not at hc
  have hw := h.waitsFor i hi
  rw [missing_eq_nil.mpr hc] at hw
  have hm := (h.mem_ready i).mpr ⟨hi, hp, by simpa using hw⟩
  rw [hr] at hm
  cases hm

end Consistent

namespace Reached

variable {r : Run} {pending : List Nat}

theorem consistent (h : Reached nodes r pending) : Consistent nodes r pending := by
  induction h with
  | start => exact consistent_start nodes
  | place _ hi ih => exact ih.place hi
  | release _ ih => exact ih.release

theorem releases (h : Reached nodes r pending) : Reached nodes (pending.foldl Run.release r) [] := by
  induction pending generalizing r with
  | nil => exact h
  | cons i is ih => exact ih h.release

theorem go (h : Reached nodes r []) (fuel : Nat) : Reached nodes (go nodes fuel r) [] := by
  induction fuel generalizing r with
  | zero => exact h
  | succ fuel ih =>
    unfold Run.go
    split
    · exact h
    · rename_i i hi
      exact ih (h.place hi).releases

end Reached

@[simp] theorem placed_foldl_release (is : List Nat) (r : Run) :
    (is.foldl release r).placed = r.placed := by
  induction is generalizing r with
  | nil => rfl
  | cons i is ih => exact (ih _).trans rfl

/-- A run places as many nodes as it may, unless none is ready. -/
theorem go_ends (nodes : List DependencyNode) (fuel : Nat) (r : Run) :
    (go nodes fuel r).ready = [] ∨ (go nodes fuel r).placed.length = r.placed.length + fuel := by
  induction fuel generalizing r with
  | zero => exact .inr rfl
  | succ fuel ih =>
    unfold go
    split
    · rename_i hi
      exact .inl (first?_eq_none hi)
    · rename_i i hi
      refine (ih _).imp_right fun hl => ?_
      rw [hl, placed_foldl_release]
      simp [Run.place]
      omega

end Run

theorem placed_placed (nodes : List DependencyNode) : Placed nodes (placed nodes) :=
  (Run.Reached.start.go nodes.length).consistent.placed

theorem perm_of_length (h : (placed nodes).length = nodes.length) :
    (placed nodes).Perm (List.range nodes.length) := by
  have hp := placed_placed nodes
  have hsub := hp.nodup.subperm fun i hi => List.mem_range.mpr (hp.lt hi)
  exact hsub.perm_of_length_le (by simp [h])

/-- What is left over depends on something else that is. -/
theorem exists_notMem_placed (hi : i < nodes.length) (hp : i ∉ placed nodes) :
    ∃ j, DependsOn nodes i j ∧ j ∉ placed nodes := by
  have hc : Run.Consistent nodes _ _ := (Run.Reached.start.go nodes.length).consistent
  rcases Run.go_ends nodes nodes.length (.start nodes) with hready | hl
  · exact hc.exists_missing hready hi hp
  · have hperm : (placed nodes).Perm _ := perm_of_length (hl.trans (Nat.zero_add _))
    exact absurd (hperm.mem_iff.mpr (List.mem_range.mpr hi)) hp

def unplaced (nodes : List DependencyNode) : List Nat :=
  (List.range nodes.length).filter fun i => !(placed nodes).contains i

theorem mem_unplaced : i ∈ unplaced nodes ↔ i < nodes.length ∧ i ∉ placed nodes := by
  simp [unplaced]

theorem unplaced_ne_nil (h : (placed nodes).length ≠ nodes.length) : unplaced nodes ≠ [] := by
  intro hnil
  have hp := placed_placed nodes
  have hall : List.range nodes.length ⊆ placed nodes := by
    intro i hi
    by_contra hip
    have hm := mem_unplaced.mpr ⟨List.mem_range.mp hi, hip⟩
    rw [hnil] at hm
    cases hm
  have hle := (List.nodup_range.subperm hall).length_le
  have hge := (hp.nodup.subperm fun i hi => List.mem_range.mpr (hp.lt hi)).length_le
  rw [List.length_range] at hle hge
  exact h (Nat.le_antisymm hge hle)

/-- From each node that is left over the dependencies lead to a circle of such nodes. -/
theorem exists_circle_of_notMem_placed (hi : i < nodes.length) (hp : i ∉ placed nodes) :
    ∃ c, Relation.ReflTransGen (DependsOn nodes) i c ∧ Relation.TransGen (DependsOn nodes) c c := by
  have hdep : ∀ i ∈ unplaced nodes, ∃ j ∈ unplaced nodes, DependsOn nodes i j := by
    intro i hi
    obtain ⟨hlt, hip⟩ := mem_unplaced.mp hi
    obtain ⟨j, hd, hjp⟩ := exists_notMem_placed hlt hip
    exact ⟨j, mem_unplaced.mpr ⟨hd.lt_right, hjp⟩, hd⟩
  obtain ⟨c, -, hc⟩ := exists_circle hdep (mem_unplaced.mpr ⟨hi, hp⟩)
  exact ⟨c, hc⟩

/-- Nodes are left over only where some depend on each other in a circle. -/
theorem not_acyclic_of_length (h : (placed nodes).length ≠ nodes.length) : ¬ Acyclic nodes := by
  obtain ⟨i, hi⟩ := List.exists_mem_of_ne_nil _ (unplaced_ne_nil h)
  obtain ⟨hlt, hp⟩ := mem_unplaced.mp hi
  obtain ⟨c, -, hc⟩ := exists_circle_of_notMem_placed hlt hp
  exact fun ha => ha c hc

end Order

/-- Every node once, and each of them one that can come next after those before it: it follows all that
it depends on, and of the nodes of which that holds it is the first in template order. -/
structure Order.InOrder (nodes : List DependencyNode) (order : List Nat) : Prop where
  perm : order.Perm (List.range nodes.length)
  next : ∀ k i, order[k]? = some i → Order.Next nodes (order.take k) i

theorem expansionOrder_ok {nodes : List DependencyNode} {order : List Nat}
    (h : expansionOrder nodes = .ok order) :
    (Order.placed nodes).length = nodes.length ∧ order = (Order.placed nodes).reverse := by
  unfold expansionOrder at h
  dsimp only at h
  split at h
  · rename_i hl
    cases h
    exact ⟨hl, rfl⟩
  · cases h

theorem expansionOrder_perm {nodes : List DependencyNode} {order : List Nat}
    (h : expansionOrder nodes = .ok order) : order.Perm (List.range nodes.length) := by
  obtain ⟨hl, rfl⟩ := expansionOrder_ok h
  exact (List.reverse_perm _).trans (Order.perm_of_length hl)

/-- There is an order of expansion exactly where no node depends on itself, directly or through others,
and then it is the one that always takes the first in template order of the nodes that can come next.
Throughout the run that finds it, no node waits for less than nothing. -/
theorem expansionOrder_topological (nodes : List DependencyNode) :
    ((∃ order, expansionOrder nodes = .ok order) ↔ Order.Acyclic nodes) ∧
      (∀ order, expansionOrder nodes = .ok order → Order.InOrder nodes order) ∧
      Order.Run.Reached nodes (Order.Run.go nodes nodes.length (.start nodes)) [] ∧
      ∀ r pending, Order.Run.Reached nodes r pending → ∀ left ∈ r.waiting, 0 ≤ left := by
  have hplaced := Order.placed_placed nodes
  refine ⟨⟨?_, ?_⟩, ?_, Order.Run.Reached.start.go nodes.length,
    fun r pending hr => hr.consistent.nonneg⟩
  · rintro ⟨order, ho⟩
    have hperm := expansionOrder_perm ho
    rw [(expansionOrder_ok ho).2] at hperm
    refine hplaced.acyclic fun i hi => ?_
    exact List.mem_reverse.mp (hperm.mem_iff.mpr (List.mem_range.mpr hi))
  · intro ha
    have hl : (Order.placed nodes).length = nodes.length :=
      by_contra fun hl => Order.not_acyclic_of_length hl ha
    exact ⟨_, if_pos hl⟩
  · intro order ho
    refine ⟨expansionOrder_perm ho, ?_⟩
    obtain ⟨-, rfl⟩ := expansionOrder_ok ho
    exact fun k i hi => hplaced.next_of_reverse hi

/-- Three nodes in a chain against the order of the template, with a dependency that is named twice and
one that is no node. -/
def Order.chain : List DependencyNode :=
  [⟨0, "c", [1, 1]⟩, ⟨1, "b", [2, 7]⟩, ⟨2, "a", []⟩]

theorem expansionOrder_topological_chain :
    expansionOrder Order.chain = .ok [2, 1, 0] ∧ Order.InOrder Order.chain [2, 1, 0] ∧
      Order.Acyclic Order.chain := by
  have ho : expansionOrder Order.chain = .ok [2, 1, 0] := by decide +kernel
  obtain ⟨hiff, horder, -⟩ := expansionOrder_topological Order.chain
  exact ⟨ho, horder _ ho, hiff.mp ⟨_, ho⟩⟩

end ResourceTemplate
