import ResourceTemplate.Proofs.Order

namespace ResourceTemplate

namespace Order

def OnCircle (nodes : List DependencyNode) (i : Nat) : Prop :=
  Relation.TransGen (DependsOn nodes) i i

/-- The dependencies of the node lead to a circle, and those of a circle lead to the node. -/
structure BetweenCircles (nodes : List DependencyNode) (i : Nat) : Prop where
  reaches : ∃ c, Relation.ReflTransGen (DependsOn nodes) i c ∧ OnCircle nodes c
  reached : ∃ c, OnCircle nodes c ∧ Relation.ReflTransGen (DependsOn nodes) c i

/-- The rounds in which the nodes that none of the others needs are dropped, however many it takes, and what they
leave. -/
inductive Prunes (nodes : List DependencyNode) : (rest left : List Nat) → Prop where
  | done {rest : List Nat} (h : ∀ i ∈ rest, isNeeded nodes rest i = true) : Prunes nodes rest rest
  | round {rest left : List Nat} {i : Nat} (hi : i ∈ rest) (h : isNeeded nodes rest i = false)
      (hl : Prunes nodes (rest.filter (isNeeded nodes rest)) left) : Prunes nodes rest left

variable {nodes : List DependencyNode} {i j : Nat} {rest left : List Nat}

theorem OnCircle.lt (h : OnCircle nodes i) : i < nodes.length := by
  obtain ⟨j, hd, -⟩ := (Relation.TransGen.head'_iff).mp h
  exact hd.lt

theorem OnCircle.between (h : OnCircle nodes i) : BetweenCircles nodes i :=
  ⟨⟨i, .refl, h⟩, i, h, .refl⟩

namespace Placed

variable {placed : List Nat}

theorem not_onCircle (h : Placed nodes placed) (hi : i ∈ placed) (hr : Relation.ReflTransGen (DependsOn nodes) i j) :
    ¬ OnCircle nodes j := by
  have hall {j k : Nat} (hj : j ∈ placed) (hc : Relation.TransGen (DependsOn nodes) j k) :
      k ∈ placed ∧ placed.idxOf j < placed.idxOf k := by
    induction hc with
    | single hd => exact h.idxOf_lt hj hd
    | tail _ hd ih =>
      have hk := h.idxOf_lt ih.1 hd
      exact ⟨hk.1, ih.2.trans hk.2⟩
  have hj : j ∈ placed := by
    rcases Relation.reflTransGen_iff_eq_or_transGen.mp hr with rfl | hr
    · exact hi
    · exact (hall hi hr).1
  exact fun hc => Nat.lt_irrefl _ (hall hj hc).2

end Placed

/-- The nodes that are left over are those from which a circle is reached. -/
theorem mem_unplaced_iff :
    i ∈ unplaced nodes ↔ ∃ c, Relation.ReflTransGen (DependsOn nodes) i c ∧ OnCircle nodes c := by
  rw [mem_unplaced]
  constructor
  · rintro ⟨hi, hp⟩
    exact exists_circle_of_notMem_placed hi hp
  · rintro ⟨c, hr, hc⟩
    refine ⟨?_, fun hp => (placed_placed nodes).not_onCircle hp hr hc⟩
    rcases Relation.ReflTransGen.cases_head hr with rfl | ⟨j, hd, -⟩
    · exact hc.lt
    · exact hd.lt

theorem isNeeded_eq_true : isNeeded nodes rest i = true ↔ ∃ d ∈ rest, DependsOn nodes d i := by
  simp only [isNeeded, List.any_eq_true, List.contains_iff_mem, mem_dependencies]

/-- The rounds end, after no more of them than there are nodes. -/
theorem prunes_prune {fuel : Nat} (h : rest.length ≤ fuel) : Prunes nodes rest (prune nodes fuel rest) := by
  induction fuel generalizing rest with
  | zero =>
    rw [List.eq_nil_of_length_eq_zero (Nat.le_zero.mp h)]
    exact .done nofun
  | succ fuel ih =>
    unfold prune
    by_cases hall : ∀ i ∈ rest, isNeeded nodes rest i = true
    · simp only [List.filter_eq_self.mpr hall, beq_self_eq_true, if_true]
      exact .done hall
    · push Not at hall
      obtain ⟨i, hi, hn⟩ := hall
      have hlt : (rest.filter (isNeeded nodes rest)).length < rest.length :=
        List.length_filter_lt_length_iff_exists.mpr ⟨i, hi, by simpa using hn⟩
      simp only [beq_iff_eq, Nat.ne_of_lt hlt, if_false]
      exact .round hi (by simpa using hn) (ih (by omega))

namespace Prunes

theorem sublist (h : Prunes nodes rest left) : left.Sublist rest := by
  induction h with
  | done _ => exact .refl _
  | round _ _ _ ih => exact ih.trans List.filter_sublist

theorem needed (h : Prunes nodes rest left) : ∀ i ∈ left, ∃ d ∈ left, DependsOn nodes d i := by
  induction h with
  | done h => exact fun i hi => isNeeded_eq_true.mp (h i hi)
  | round _ _ _ ih => exact ih

theorem keeps {p : Nat → Prop} (h : Prunes nodes rest left) (hp : ∀ i, p i → ∃ d, p d ∧ DependsOn nodes d i)
    (hr : ∀ i, p i → i ∈ rest) : ∀ i, p i → i ∈ left := by
  induction h with
  | done _ => exact hr
  | round _ _ _ ih =>
    refine ih fun i hi => List.mem_filter.mpr ⟨hr i hi, ?_⟩
    obtain ⟨d, hd, hdep⟩ := hp i hi
    exact isNeeded_eq_true.mpr ⟨d, hr d hd, hdep⟩

theorem reached (h : Prunes nodes rest left) (hi : i ∈ left) :
    ∃ c, OnCircle nodes c ∧ Relation.ReflTransGen (DependsOn nodes) c i := by
  obtain ⟨c, -, hr, hc⟩ := exists_circle (r := Function.swap (DependsOn nodes)) h.needed hi
  exact ⟨c, Relation.transGen_swap.mp hc, Relation.reflTransGen_swap.mp hr⟩

end Prunes

theorem BetweenCircles.needed (h : BetweenCircles nodes i) : ∃ d, BetweenCircles nodes d ∧ DependsOn nodes d i := by
  obtain ⟨⟨e, hie, he⟩, c, hc, hci⟩ := h
  -- a way of at least one step leads from the circle to the node
  obtain ⟨d, hcd, hdi⟩ := Relation.TransGen.tail'_iff.mp (Relation.TransGen.trans_left hc hci)
  exact ⟨d, ⟨⟨e, hie.head hdi, he⟩, c, hc, hcd⟩, hdi⟩

/-- Of the nodes that are left over the rounds leave those between circles. -/
theorem Prunes.mem_iff (h : Prunes nodes (unplaced nodes) left) : i ∈ left ↔ BetweenCircles nodes i := by
  constructor
  · intro hi
    exact ⟨mem_unplaced_iff.mp (h.sublist.mem hi), h.reached hi⟩
  · intro hi
    exact h.keeps (fun _ h => h.needed) (fun _ h => mem_unplaced_iff.mpr h.reaches) i hi

theorem perm_insertByOrdinal (nodes : List DependencyNode) (i : Nat) (is : List Nat) :
    (insertByOrdinal nodes i is).Perm (i :: is) := by
  induction is with
  | nil => exact .refl _
  | cons j js ih =>
    unfold insertByOrdinal
    split
    · exact .refl _
    · exact (ih.cons j).trans (.swap i j js)

/-- After nodes that stand before it in the list, a node is put where it belongs in template order. -/
theorem pairwise_insertByOrdinal {is : List Nat} (h : is.Pairwise (Precedes nodes)) (hi : ∀ j ∈ is, j < i) :
    (insertByOrdinal nodes i is).Pairwise (Precedes nodes) := by
  induction is with
  | nil => exact List.pairwise_singleton _ _
  | cons j js ih =>
    obtain ⟨hj, hjs⟩ := List.pairwise_cons.mp h
    have hji := hi j List.mem_cons_self
    unfold insertByOrdinal
    split
    · rename_i hlt
      refine List.pairwise_cons.mpr ⟨fun k hk => ?_, h⟩
      rcases List.mem_cons.mp hk with rfl | hk
      · exact .inl hlt
      · exact Precedes.trans (.inl hlt) (hj k hk)
    · rename_i hle
      refine List.pairwise_cons.mpr ⟨fun k hk => ?_, ih hjs fun k hk => hi k (List.mem_cons_of_mem _ hk)⟩
      rcases List.mem_cons.mp ((perm_insertByOrdinal nodes i js).mem_iff.mp hk) with rfl | hk
      · unfold Precedes
        omega
      · exact hj k hk

/-- Nodes in the order of the list are sorted by ordinal, and those of one ordinal stay in the order of the list. -/
theorem sortByOrdinal_spec (nodes : List DependencyNode) {is : List Nat} (h : is.Pairwise (· < ·)) :
    (sortByOrdinal nodes is).Perm is ∧ (sortByOrdinal nodes is).Pairwise (Precedes nodes) := by
  -- what is sorted so far stands in the list before what is still to come
  have hgo (is acc : List Nat) (his : is.Pairwise (· < ·)) (hlt : ∀ j ∈ acc, ∀ i ∈ is, j < i)
      (hacc : acc.Pairwise (Precedes nodes)) :
      (is.foldl (fun acc i => insertByOrdinal nodes i acc) acc).Perm (acc ++ is) ∧
        (is.foldl (fun acc i => insertByOrdinal nodes i acc) acc).Pairwise (Precedes nodes) := by
    induction is generalizing acc with
    | nil => exact ⟨by simp, hacc⟩
    | cons i is ih =>
      obtain ⟨hi, his⟩ := List.pairwise_cons.mp his
      have hperm := perm_insertByOrdinal nodes i acc
      have hnext := ih (insertByOrdinal nodes i acc) his ?_ (pairwise_insertByOrdinal hacc fun j hj =>
        hlt j hj i List.mem_cons_self)
      · exact ⟨hnext.1.trans ((hperm.append_right is).trans List.perm_middle.symm), hnext.2⟩
      · intro j hj k hk
        rcases List.mem_cons.mp (hperm.mem_iff.mp hj) with rfl | hj
        · exact hi k hk
        · exact hlt j hj k (List.mem_cons_of_mem _ hk)
  simpa [sortByOrdinal] using hgo is [] h nofun .nil

theorem pairwise_unplaced (nodes : List DependencyNode) : (unplaced nodes).Pairwise (· < ·) :=
  List.pairwise_lt_range.filter _

end Order

/-- The nodes that are named: those between circles, each once and in template order. -/
structure Order.NamesCircles (nodes : List DependencyNode) (named : List Nat) : Prop where
  ne_nil : named ≠ []
  nodup : named.Nodup
  sorted : named.Pairwise (Order.Precedes nodes)
  onCircle : ∀ i, Order.OnCircle nodes i → i ∈ named
  between : ∀ i, i ∈ named ↔ Order.BetweenCircles nodes i

theorem expansionOrder_error {nodes : List DependencyNode} {named : List Nat}
    (h : expansionOrder nodes = .error named) :
    (Order.placed nodes).length ≠ nodes.length ∧
      named = Order.sortByOrdinal nodes (Order.prune nodes (Order.unplaced nodes).length (Order.unplaced nodes)) := by
  unfold expansionOrder at h
  dsimp only at h
  split at h
  · cases h
  · rename_i hl
    cases h
    exact ⟨hl, rfl⟩

theorem Order.namesCircles {nodes : List DependencyNode} {named : List Nat}
    (h : expansionOrder nodes = .error named) : Order.NamesCircles nodes named := by
  obtain ⟨hl, rfl⟩ := expansionOrder_error h
  have hprunes : Order.Prunes nodes _ _ := Order.prunes_prune (Nat.le_refl (Order.unplaced nodes).length)
  have hlt := (Order.pairwise_unplaced nodes).sublist hprunes.sublist
  obtain ⟨hperm, hsorted⟩ := Order.sortByOrdinal_spec nodes hlt
  have hmem (i : Nat) := hperm.mem_iff.trans (hprunes.mem_iff (i := i))
  refine ⟨?_, hperm.nodup_iff.mpr (hlt.imp Nat.ne_of_lt), hsorted, fun i hi => (hmem i).mpr hi.between, hmem⟩
  -- what is left over leads to a circle
  obtain ⟨i, hi⟩ := List.exists_mem_of_ne_nil _ (Order.unplaced_ne_nil hl)
  obtain ⟨c, -, hc⟩ := Order.mem_unplaced_iff.mp hi
  exact List.ne_nil_of_mem ((hmem c).mpr hc.between)

theorem Order.forall₂_labels {nodes : List DependencyNode} {is : List Nat} (h : ∀ i ∈ is, i < nodes.length) :
    List.Forall₂ (fun i label => ∃ node, nodes[i]? = some node ∧ node.label = label) is
      (Order.labels nodes is) := by
  refine List.forall₂_map_right_iff.mpr (List.forall₂_same.mpr fun i hi => ?_)
  exact ⟨nodes.get ⟨i, h i hi⟩, by simp [h i hi]⟩

/-- Where no order exists, the nodes between circles are named, with their labels and in template order: every node
of a circle is, at least one, and none from which no circle is reached or on which none depends. They are what is left
when the nodes that none of the others needs are dropped in rounds, of which there are finitely many from any nodes. -/
theorem expansionOrder_names_circles (nodes : List DependencyNode) :
    (∀ named, expansionOrder nodes = .error named →
      Order.NamesCircles nodes named ∧
        (∃ left, Order.Prunes nodes (Order.unplaced nodes) left ∧ named.Perm left) ∧
        List.Forall₂ (fun i label => ∃ node, nodes[i]? = some node ∧ node.label = label) named
          (Order.labels nodes named)) ∧
      ∀ rest, Order.Prunes nodes rest (Order.prune nodes rest.length rest) := by
  have hprunes (rest : List Nat) : Order.Prunes nodes rest _ := Order.prunes_prune (Nat.le_refl rest.length)
  refine ⟨fun named h => ?_, hprunes⟩
  obtain ⟨-, rfl⟩ := expansionOrder_error h
  have hleft := hprunes (Order.unplaced nodes)
  have hperm := (Order.sortByOrdinal_spec nodes ((Order.pairwise_unplaced nodes).sublist hleft.sublist)).1
  refine ⟨Order.namesCircles h, ⟨_, hleft, hperm⟩, Order.forall₂_labels fun i hi => ?_⟩
  exact (Order.mem_unplaced.mp (hleft.sublist.mem (hperm.mem_iff.mp hi))).1

/-- A circle against the order of the template, with a dependency that is named twice and one that is no node; a node
that waits for the circle and one that the circle waits for. -/
def Order.circle : List DependencyNode :=
  [⟨5, "a", [1, 1, 9]⟩, ⟨3, "b", [0, 3]⟩, ⟨0, "waits", [0]⟩, ⟨1, "first", []⟩]

theorem expansionOrder_names_circles_circle :
    expansionOrder Order.circle = .error [1, 0] ∧ Order.labels Order.circle [1, 0] = ["b", "a"] ∧
      Order.NamesCircles Order.circle [1, 0] ∧ Order.Prunes Order.circle [0, 1, 2] [0, 1] := by
  have ho : expansionOrder Order.circle = .error [1, 0] := by decide +kernel
  obtain ⟨hnames, hprunes⟩ := expansionOrder_names_circles Order.circle
  exact ⟨ho, by decide, (hnames _ ho).1, hprunes [0, 1, 2]⟩

/-- Each of the named nodes lies between circles, and all of them lie on one exactly where no node on a way from circle
to circle is off them. -/
theorem expansionOrder_named_onCircle {nodes : List DependencyNode} {named : List Nat}
    (h : expansionOrder nodes = .error named) :
    (∀ i ∈ named, Order.BetweenCircles nodes i) ∧
      ((∀ i ∈ named, Order.OnCircle nodes i) ↔
        ∀ c i d, Order.OnCircle nodes c → Relation.ReflTransGen (Order.DependsOn nodes) c i →
          Relation.ReflTransGen (Order.DependsOn nodes) i d → Order.OnCircle nodes d → Order.OnCircle nodes i) := by
  have hmem := (Order.namesCircles h).between
  refine ⟨fun i => (hmem i).mp, ?_, ?_⟩
  · intro hall c i d hc hci hid hd
    exact hall i ((hmem i).mpr ⟨⟨d, hid, hd⟩, c, hc, hci⟩)
  · intro hways i hi
    obtain ⟨⟨d, hid, hd⟩, c, hc, hci⟩ := (hmem i).mp hi
    exact hways c i d hc hci hid hd

theorem expansionOrder_named_onCircle_circle :
    expansionOrder Order.circle = .error [1, 0] ∧ (∀ i ∈ [1, 0], Order.OnCircle Order.circle i) ∧
      ¬ Order.BetweenCircles Order.circle 2 := by
  have ho : expansionOrder Order.circle = .error [1, 0] := by decide +kernel
  have h01 : Order.DependsOn Order.circle 0 1 := ⟨_, rfl, by decide, by decide⟩
  have h10 : Order.DependsOn Order.circle 1 0 := ⟨_, rfl, by decide, by decide⟩
  obtain ⟨-, hiff⟩ := expansionOrder_named_onCircle ho
  have hall : ∀ i ∈ [1, 0], Order.OnCircle Order.circle i := by
    simp only [List.forall_mem_cons, List.not_mem_nil, false_implies, implies_true, and_true]
    exact ⟨.head h10 (.single h01), .head h01 (.single h10)⟩
  refine ⟨ho, hall, fun ⟨⟨d, hid, hd⟩, c, hc, hci⟩ => ?_⟩
  -- the node that waits for the circle would be on one
  have h2 := hiff.mp hall c 2 d hc hci hid hd
  have hm := (Order.namesCircles ho).onCircle 2 h2
  simp at hm

def Order.bridge : List DependencyNode :=
  [⟨0, "a", [1]⟩, ⟨1, "b", [0]⟩, ⟨2, "c", [0]⟩, ⟨3, "d", [4, 2]⟩, ⟨4, "e", [3]⟩]

/-- A node that lies on no circle is named. -/
theorem expansionOrder_names_bridge :
    expansionOrder Order.bridge = .error [0, 1, 2, 3, 4] ∧ ¬ Order.OnCircle Order.bridge 2 := by
  refine ⟨by decide +kernel, fun h => ?_⟩
  -- from the third node only the first circle is reached
  have hreached {j : Nat} (hj : Relation.TransGen (Order.DependsOn Order.bridge) 2 j) : j = 0 ∨ j = 1 := by
    induction hj with
    | single hd => exact .inl (List.mem_singleton.mp (Order.mem_dependencies.mpr hd))
    | tail _ hd ih =>
      rcases ih with rfl | rfl
      · exact .inr (List.mem_singleton.mp (Order.mem_dependencies.mpr hd))
      · exact .inl (List.mem_singleton.mp (Order.mem_dependencies.mpr hd))
  rcases hreached h with h | h <;> cases h

end ResourceTemplate
