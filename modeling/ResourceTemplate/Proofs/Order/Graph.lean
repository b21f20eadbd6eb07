import Mathlib.Data.Fintype.Order
import Mathlib.Data.Set.Finite.List
import ResourceTemplate.Order

namespace ResourceTemplate

/-- Where each of finitely many things is related to one of them, some are related in a circle. -/
theorem exists_transGen_self {α : Type} {r : α → α → Prop} {xs : List α} (hne : xs ≠ [])
    (h : ∀ a ∈ xs, ∃ b ∈ xs, r a b) : ∃ a ∈ xs, Relation.TransGen r a a := by
  have : Finite {a // a ∈ xs} := (List.finite_toSet xs).to_subtype
  let s : {a // a ∈ xs} → {a // a ∈ xs} → Prop := fun b a => Relation.TransGen r a b
  by_contra hc
  have : Std.Irrefl s := ⟨fun a ha => hc ⟨a, a.2, ha⟩⟩
  have : IsTrans _ s := ⟨fun _ _ _ hab hbc => hbc.trans hab⟩
  have hwf : WellFounded s := Finite.wellFounded_of_trans_of_irrefl s
  -- without a circle some thing is related to none, and each is related to one
  have hnone : ∀ a : {a // a ∈ xs}, False := fun a =>
    hwf.induction a fun a ih =>
      have ⟨b, hb, hab⟩ := h a a.2
      ih ⟨b, hb⟩ (.single hab)
  obtain ⟨a, ha⟩ := List.exists_mem_of_ne_nil xs hne
  exact hnone ⟨a, ha⟩

/-- From each of finitely many things that are each related to one of them a circle is reached. -/
theorem exists_circle {α : Type} {r : α → α → Prop} {xs : List α} {a : α}
    (h : ∀ a ∈ xs, ∃ b ∈ xs, r a b) (ha : a ∈ xs) :
    ∃ b ∈ xs, Relation.ReflTransGen r a b ∧ Relation.TransGen r b b := by
  classical
  let reached := xs.filter (Relation.ReflTransGen r a)
  have hreached {b : α} : b ∈ reached ↔ b ∈ xs ∧ Relation.ReflTransGen r a b := by simp [reached]
  have hstep : ∀ b ∈ reached, ∃ c ∈ reached, r b c := by
    intro b hb
    obtain ⟨hb, hab⟩ := hreached.mp hb
    obtain ⟨c, hc, hbc⟩ := h b hb
    exact ⟨c, hreached.mpr ⟨hc, hab.tail hbc⟩, hbc⟩
  have hne : reached ≠ [] := List.ne_nil_of_mem (hreached.mpr ⟨ha, .refl⟩)
  obtain ⟨b, hb, hc⟩ := exists_transGen_self hne hstep
  exact ⟨b, (hreached.mp hb).1, (hreached.mp hb).2, hc⟩

theorem nodup_eraseDups {α : Type} [BEq α] [LawfulBEq α] (xs : List α) : xs.eraseDups.Nodup := by
  induction hn : xs.length using Nat.strong_induction_on generalizing xs with
  | _ n ih =>
    cases xs with
    | nil => simp
    | cons x xs =>
      rw [List.eraseDups_cons, List.nodup_cons, List.mem_eraseDups]
      refine ⟨by simp, ih _ ?_ _ rfl⟩
      have := List.length_filter_le (fun y => !y == x) xs
      rw [List.length_cons] at hn
      omega

namespace Order

/-- Node `i` names node `j` of the list as a dependency. -/
def DependsOn (nodes : List DependencyNode) (i j : Nat) : Prop :=
  ∃ node, nodes[i]? = some node ∧ j ∈ node.dependsOn ∧ j < nodes.length

/-- No node depends on itself, neither directly nor through others. -/
def Acyclic (nodes : List DependencyNode) : Prop :=
  ∀ i, ¬ Relation.TransGen (DependsOn nodes) i i

/-- Node `i` is no later in the template than node `j`: by ordinal, then by position. -/
def Precedes (nodes : List DependencyNode) (i j : Nat) : Prop :=
  ordinal nodes i < ordinal nodes j ∨ ordinal nodes i = ordinal nodes j ∧ i ≤ j

variable {nodes : List DependencyNode} {i j : Nat}

theorem mem_dependencies : j ∈ dependencies nodes i ↔ DependsOn nodes i j := by
  unfold dependencies DependsOn
  cases nodes[i]? with
  | none => simp
  | some node => simp

theorem nodup_dependencies (nodes : List DependencyNode) (i : Nat) :
    (dependencies nodes i).Nodup := by
  unfold dependencies
  split
  · exact nodup_eraseDups _
  · exact List.nodup_nil

theorem DependsOn.lt (h : DependsOn nodes i j) : i < nodes.length := by
  obtain ⟨node, hn, -⟩ := h
  exact (List.getElem?_eq_some_iff.mp hn).1

theorem DependsOn.lt_right (h : DependsOn nodes i j) : j < nodes.length := by
  obtain ⟨node, -, -, hj⟩ := h
  exact hj

theorem mem_dependents : j ∈ dependents nodes i ↔ DependsOn nodes j i := by
  unfold dependents
  simp only [List.mem_filter, List.mem_range, List.contains_iff_mem, mem_dependencies]
  exact ⟨fun h => h.2, fun h => ⟨h.lt, h⟩⟩

theorem nodup_dependents (nodes : List DependencyNode) (i : Nat) : (dependents nodes i).Nodup :=
  List.nodup_range.filter _

theorem Precedes.refl (nodes : List DependencyNode) (i : Nat) : Precedes nodes i i :=
  .inr ⟨rfl, Nat.le_refl i⟩

theorem Precedes.trans {k : Nat} (h : Precedes nodes i j) (h' : Precedes nodes j k) :
    Precedes nodes i k := by
  unfold Precedes at *
  omega

theorem earlier_mem (nodes : List DependencyNode) (i j : Nat) :
    earlier nodes i j = i ∨ earlier nodes i j = j := by
  unfold earlier
  split
  · exact Or.inr rfl
  · exact Or.inl rfl

theorem earlier_precedes (nodes : List DependencyNode) (i j : Nat) :
    Precedes nodes (earlier nodes i j) i ∧ Precedes nodes (earlier nodes i j) j := by
  unfold earlier Precedes
  split <;> rename_i h <;> simp at h <;> omega

theorem foldl_earlier_mem (nodes : List DependencyNode) (is : List Nat) (i : Nat) :
    is.foldl (earlier nodes) i ∈ i :: is := by
  induction is generalizing i with
  | nil => exact List.mem_singleton.mpr rfl
  | cons j is ih =>
    rw [List.foldl_cons]
    have h := ih (earlier nodes i j)
    rcases List.mem_cons.mp h with he | hm
    · rw [he]
      rcases earlier_mem nodes i j with hi | hj
      · simp [hi]
      · simp [hj]
    · simp [hm]

theorem foldl_earlier_precedes (nodes : List DependencyNode) (is : List Nat) (i : Nat) :
    ∀ j ∈ i :: is, Precedes nodes (is.foldl (earlier nodes) i) j := by
  induction is generalizing i with
  | nil =>
    intro j hj
    rw [List.mem_singleton.mp hj]
    exact .refl nodes i
  | cons k is ih =>
    intro j hj
    have hfirst := ih (earlier nodes i k) (earlier nodes i k) List.mem_cons_self
    rcases List.mem_cons.mp hj with rfl | hj
    · exact hfirst.trans (earlier_precedes nodes j k).1
    · rcases List.mem_cons.mp hj with rfl | hj
      · exact hfirst.trans (earlier_precedes nodes i j).2
      · exact ih (earlier nodes i k) j (List.mem_cons_of_mem _ hj)

theorem first?_mem {is : List Nat} (h : first? nodes is = some i) : i ∈ is := by
  cases is with
  | nil => cases h
  | cons j is =>
    cases h
    exact foldl_earlier_mem nodes is j

theorem first?_precedes {is : List Nat} (h : first? nodes is = some i) :
    ∀ j ∈ is, Precedes nodes i j := by
  cases is with
  | nil => cases h
  | cons j is =>
    cases h
    exact foldl_earlier_precedes nodes is j

theorem first?_eq_none {is : List Nat} (h : first? nodes is = none) : is = [] := by
  cases is with
  | nil => rfl
  | cons j is => cases h

/-- A node that can come next after others: all that it depends on is among them, and of such nodes it
is the first in template order. -/
structure Next (nodes : List DependencyNode) (before : List Nat) (i : Nat) : Prop where
  lt : i < nodes.length
  fresh : i ∉ before
  dependencies : ∀ j, DependsOn nodes i j → j ∈ before
  least : ∀ j < nodes.length, j ∉ before → (∀ k, DependsOn nodes j k → k ∈ before) →
    Precedes nodes i j

theorem Next.congr {before others : List Nat} (h : Next nodes before i)
    (hm : ∀ j, j ∈ before ↔ j ∈ others) : Next nodes others i := by
  refine ⟨h.lt, fun hi => h.fresh ((hm i).mpr hi), fun j hd => (hm j).mp (h.dependencies j hd), ?_⟩
  intro j hj hjo hd
  exact h.least j hj (fun hb => hjo ((hm j).mp hb)) fun k hk => (hm k).mpr (hd k hk)

def Placed (nodes : List DependencyNode) : List Nat → Prop
  | [] => True
  | i :: before => Next nodes before i ∧ Placed nodes before

namespace Placed

variable {placed : List Nat}

theorem nodup (h : Placed nodes placed) : placed.Nodup := by
  induction placed with
  | nil => exact List.nodup_nil
  | cons i before ih => exact List.nodup_cons.mpr ⟨h.1.fresh, ih h.2⟩

theorem lt (h : Placed nodes placed) (hi : i ∈ placed) : i < nodes.length := by
  induction placed with
  | nil => cases hi
  | cons k before ih =>
    rcases List.mem_cons.mp hi with rfl | hi
    · exact h.1.lt
    · exact ih h.2 hi

theorem next {later before : List Nat} (h : Placed nodes (later ++ i :: before)) :
    Next nodes before i := by
  induction later with
  | nil => exact h.1
  | cons k later ih => exact ih h.2

/-- Read from the first to the last, each placed node is one that can come next after those before. -/
theorem next_of_reverse (h : Placed nodes placed) {k : Nat} (hi : placed.reverse[k]? = some i) :
    Next nodes (placed.reverse.take k) i := by
  obtain ⟨hk, hi⟩ := List.getElem?_eq_some_iff.mp hi
  have hsplit : placed.reverse = placed.reverse.take k ++ i :: placed.reverse.drop (k + 1) := by
    rw [← hi, ← List.drop_eq_getElem_cons hk, List.take_append_drop]
  have hplaced : placed =
      (placed.reverse.drop (k + 1)).reverse ++ i :: (placed.reverse.take k).reverse := by
    have hr := congrArg List.reverse hsplit
    simpa using hr
  rw [hplaced] at h
  exact h.next.congr fun j => List.mem_reverse

theorem idxOf_lt (h : Placed nodes placed) (hi : i ∈ placed) (hd : DependsOn nodes i j) :
    j ∈ placed ∧ placed.idxOf i < placed.idxOf j := by
  induction placed with
  | nil => cases hi
  | cons k before ih =>
    by_cases hk : i = k
    · subst hk
      have hj := h.1.dependencies j hd
      have hne : i ≠ j := by
        rintro rfl
        exact h.1.fresh hj
      refine ⟨List.mem_cons_of_mem _ hj, ?_⟩
      rw [List.idxOf_cons_self, List.idxOf_cons_ne _ hne]
      omega
    · have hm : i ∈ before := (List.mem_cons.mp hi).resolve_left hk
      obtain ⟨hj, hlt⟩ := ih h.2 hm
      have hne : k ≠ j := by
        rintro rfl
        exact h.1.fresh hj
      refine ⟨List.mem_cons_of_mem _ hj, ?_⟩
      rw [List.idxOf_cons_ne _ (Ne.symm hk), List.idxOf_cons_ne _ hne]
      omega

theorem mem_of_dependsOn (h : Placed nodes placed) (hi : i ∈ placed) (hd : DependsOn nodes i j) :
    j ∈ placed := (h.idxOf_lt hi hd).1

/-- Nodes that can all be placed do not depend on each other in a circle. -/
theorem acyclic (h : Placed nodes placed) (hall : ∀ i < nodes.length, i ∈ placed) :
    Acyclic nodes := by
  have hlt {i j : Nat} (hc : Relation.TransGen (DependsOn nodes) i j) :
      placed.idxOf i < placed.idxOf j := by
    induction hc with
    | single hd => exact (h.idxOf_lt (hall _ hd.lt) hd).2
    | tail _ hd ih => exact ih.trans (h.idxOf_lt (hall _ hd.lt) hd).2
  exact fun i hc => Nat.lt_irrefl _ (hlt hc)

end Placed

end Order
end ResourceTemplate
