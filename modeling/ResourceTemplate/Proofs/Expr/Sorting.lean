import ResourceTemplate.Expr.Standalone
import ResourceTemplate.Proofs.Outcome

namespace ResourceTemplate.Sort

variable {σ α : Type}

/-- What makes a comparison a strict weak order on some items. -/
structure StrictWeakOrder (lt : α → α → Bool) (items : List α) : Prop where
  irrefl : ∀ x ∈ items, lt x x = false
  trans : ∀ x ∈ items, ∀ y ∈ items, ∀ z ∈ items, lt x y = true → lt y z = true → lt x z = true
  incomparable : ∀ x ∈ items, ∀ y ∈ items, ∀ z ∈ items, lt x y = false ∧ lt y x = false →
    lt y z = false ∧ lt z y = false → lt x z = false ∧ lt z x = false

section

variable {lt : α → α → Bool} {items : List α} {x y z : α}

theorem StrictWeakOrder.asymm (h : StrictWeakOrder lt items) (hx : x ∈ items) (hy : y ∈ items) (hxy : lt x y = true) :
    lt y x = false := by
  rw [Bool.eq_false_iff]
  intro hyx
  have hxx := h.trans x hx y hy x hx hxy hyx
  rw [h.irrefl x hx] at hxx
  cases hxx

/-- What is not less than an item is not less than one that is not less. -/
theorem StrictWeakOrder.not_lt_trans (h : StrictWeakOrder lt items) (hx : x ∈ items) (hy : y ∈ items) (hz : z ∈ items)
    (hxy : lt x y = false) (hyz : lt y z = false) : lt x z = false := by
  cases hyx : lt y x with
  | true =>
    rw [Bool.eq_false_iff]
    intro hxz
    have hlt := h.trans y hy x hx z hz hyx hxz
    rw [hyz] at hlt
    cases hlt
  | false =>
    cases hzy : lt z y with
    | true =>
      rw [Bool.eq_false_iff]
      intro hxz
      have hlt := h.trans x hx z hz y hy hxz hzy
      rw [hxy] at hlt
      cases hlt
    | false => exact (h.incomparable x hx y hy z hz ⟨hxy, hyx⟩ ⟨hyz, hzy⟩).1

end

/-- Whether an item at a place may stand before another: the other is not less, and is not from before if neither
is less. -/
def Stands (lt : α → α → Bool) (p q : α × Nat) : Prop := lt q.1 p.1 = false ∧ (lt p.1 q.1 = false → p.2 < q.2)

/-- Whether a list holds the items of another so that no later item is less than an earlier one, and items of which
neither is less stand in the order of their places. -/
def StablySorted (lt : α → α → Bool) (items sorted : List α) : Prop :=
  ∃ places : List (α × Nat), places.Perm items.zipIdx ∧ places.map Prod.fst = sorted ∧ places.Pairwise (Stands lt)

theorem StablySorted.perm {lt : α → α → Bool} {items sorted : List α} (h : StablySorted lt items sorted) :
    sorted.Perm items := by
  obtain ⟨places, hperm, rfl, -⟩ := h
  simpa using hperm.map Prod.fst

def carried (lt : α → α → Bool) (p : α × Nat) : List (α × Nat) → List (α × Nat)
  | [] => [p]
  | q :: qs => if lt p.1 q.1 then q :: carried lt p qs else p :: q :: qs

theorem perm_carried (lt : α → α → Bool) (p : α × Nat) (qs : List (α × Nat)) : (carried lt p qs).Perm (p :: qs) := by
  induction qs with
  | nil => exact .refl _
  | cons q qs ih =>
    rw [carried]
    split
    · exact (ih.cons q).trans (.swap p q qs)
    · exact .refl _

/-- Items stay in order, greatest first, when one from a later place is carried over the greater ones. -/
theorem pairwise_carried {lt : α → α → Bool} {items : List α} (h : StrictWeakOrder lt items) {p : α × Nat}
    {qs : List (α × Nat)} (hp : p.1 ∈ items) (hmem : ∀ q ∈ qs, q.1 ∈ items) (hlater : ∀ q ∈ qs, q.2 < p.2)
    (hqs : qs.Pairwise fun q r => Stands lt r q) : (carried lt p qs).Pairwise fun q r => Stands lt r q := by
  induction qs with
  | nil => exact List.pairwise_singleton _ _
  | cons q qs ih =>
    obtain ⟨hq, hmem⟩ := List.forall_mem_cons.mp hmem
    obtain ⟨hqp, hlater⟩ := List.forall_mem_cons.mp hlater
    obtain ⟨hfirst, hrest⟩ := List.pairwise_cons.mp hqs
    rw [carried]
    split
    · rename_i hless
      refine List.pairwise_cons.mpr ⟨fun r hr => ?_, ih hmem hlater hrest⟩
      rcases List.mem_cons.mp ((perm_carried lt p qs).mem_iff.mp hr) with rfl | hr
      · exact ⟨h.asymm hp hq hless, fun hnot => by rw [hless] at hnot; cases hnot⟩
      · exact hfirst r hr
    · rename_i hnot
      have hnot : lt p.1 q.1 = false := by simpa using hnot
      refine List.pairwise_cons.mpr ⟨List.forall_mem_cons.mpr ⟨⟨hnot, fun _ => hqp⟩, fun r hr => ?_⟩, hqs⟩
      exact ⟨h.not_lt_trans hp hq (hmem r hr) hnot (hfirst r hr).1, fun _ => hlater r hr⟩

/-- Whether a comparison, from any state of a kind, tells which of any two items is less and leaves a state of the
kind. -/
def Decides (less : α → α → EvalM σ Bool) (P : σ → Prop) (items : List α) (lt : α → α → Bool) : Prop :=
  ∀ s, P s → ∀ x ∈ items, ∀ y ∈ items, ∃ t, outcome (less x y) s = (.ok (lt x y), t) ∧ P t

section

variable {less : α → α → EvalM σ Bool} {P : σ → Prop} {items : List α} {lt : α → α → Bool} {s : σ}

theorem outcome_precedes (h : Decides less P items lt) (hs : P s) {x y : α} (hx : x ∈ items) (hy : y ∈ items) :
    ∃ t, outcome (precedes less x y) s = (.ok (lt x y), t) ∧ P t := by
  obtain ⟨t, hxy, ht⟩ := h s hs x hx y hy
  cases hlt : lt x y with
  | true =>
    rw [hlt] at hxy
    exact ⟨t, outcome_bind_eq_ok.mpr ⟨true, t, hxy, rfl⟩, ht⟩
  | false =>
    rw [hlt] at hxy
    -- the other way round is asked, too, but does not change the answer
    obtain ⟨u, hyx, hu⟩ := h t ht y hy x hx
    exact ⟨u, outcome_bind_eq_ok.mpr ⟨false, t, hxy, outcome_bind_eq_ok.mpr ⟨_, u, hyx, rfl⟩⟩, hu⟩

theorem outcome_carry (h : Decides less P items lt) {p : α × Nat} {qs : List (α × Nat)} (hp : p.1 ∈ items)
    (hmem : ∀ q ∈ qs, q.1 ∈ items) (hs : P s) :
    ∃ t, outcome (carry less p.1 (qs.map Prod.fst)) s = (.ok ((carried lt p qs).map Prod.fst), t) ∧ P t := by
  induction qs generalizing s with
  | nil => exact ⟨s, rfl, hs⟩
  | cons q qs ih =>
    obtain ⟨hq, hmem⟩ := List.forall_mem_cons.mp hmem
    obtain ⟨t, hless, ht⟩ := outcome_precedes h hs hp hq
    rw [List.map_cons, carry, carried]
    cases hlt : lt p.1 q.1 with
    | true =>
      rw [hlt] at hless
      obtain ⟨u, hrest, hu⟩ := ih hmem ht
      exact ⟨u, outcome_bind_eq_ok.mpr ⟨true, t, hless, outcome_bind_eq_ok.mpr ⟨_, u, hrest, rfl⟩⟩, hu⟩
    | false =>
      rw [hlt] at hless
      exact ⟨t, outcome_bind_eq_ok.mpr ⟨false, t, hless, rfl⟩, ht⟩

/-- Items from later places are carried one after another into a list that stands in order, greatest first. -/
theorem outcome_into (h : Decides less P items lt) (horder : StrictWeakOrder lt items) {qs ps : List (α × Nat)}
    (hmem : ∀ q ∈ qs ++ ps, q.1 ∈ items) (hplaces : ps.Pairwise fun p p' => p.2 < p'.2)
    (hlater : ∀ q ∈ qs, ∀ p ∈ ps, q.2 < p.2) (hqs : qs.Pairwise fun q r => Stands lt r q) (hs : P s) :
    ∃ (rs : List (α × Nat)) (t : σ),
      outcome (into less (qs.map Prod.fst) (ps.map Prod.fst)) s = (.ok (rs.map Prod.fst), t) ∧ P t ∧
        rs.Perm (qs ++ ps) ∧ rs.Pairwise fun q r => Stands lt r q := by
  induction ps generalizing qs s with
  | nil => exact ⟨qs, s, rfl, hs, by rw [List.append_nil], hqs⟩
  | cons p ps ih =>
    obtain ⟨hfirst, hplaces⟩ := List.pairwise_cons.mp hplaces
    have hp : p.1 ∈ items := hmem p (List.mem_append_right _ List.mem_cons_self)
    have hq : ∀ q ∈ qs, q.1 ∈ items := fun q hq => hmem q (List.mem_append_left _ hq)
    obtain ⟨t, hcarry, ht⟩ := outcome_carry h hp hq hs
    have hcarried : (carried lt p qs ++ ps).Perm (qs ++ p :: ps) :=
      ((perm_carried lt p qs).append_right ps).trans List.perm_middle.symm
    have hlater' : ∀ q ∈ carried lt p qs, ∀ p' ∈ ps, q.2 < p'.2 := fun q hq p' hp' => by
      rcases List.mem_cons.mp ((perm_carried lt p qs).mem_iff.mp hq) with rfl | hq
      · exact hfirst p' hp'
      · exact hlater q hq p' (List.mem_cons_of_mem _ hp')
    have hstands := pairwise_carried horder hp hq (fun q hq => hlater q hq p List.mem_cons_self) hqs
    obtain ⟨rs, u, hrest, hu, hperm, hrs⟩ :=
      ih (fun q hq => hmem q (hcarried.mem_iff.mp hq)) hplaces hlater' hstands ht
    exact ⟨rs, u, outcome_bind_eq_ok.mpr ⟨_, t, hcarry, hrest⟩, hu, hperm.trans hcarried, hrs⟩

theorem outcome_sort (h : Decides less P items lt) (horder : StrictWeakOrder lt items) (hs : P s) :
    ∃ sorted t, outcome (sort less items) s = (.ok sorted, t) ∧ P t ∧ StablySorted lt items sorted := by
  have hplaces : items.zipIdx.Pairwise fun p p' => p.2 < p'.2 := by
    rw [← List.pairwise_map, List.zipIdx_map_snd]
    exact List.pairwise_lt_range' 1
  obtain ⟨rs, t, hrun, ht, hperm, hrs⟩ :=
    outcome_into h horder (fun q hq => List.fst_mem_of_mem_zipIdx hq) hplaces (List.forall_mem_nil _) .nil hs
  rw [List.zipIdx_map_fst] at hrun
  exact ⟨_, t, outcome_bind_eq_ok.mpr ⟨_, t, hrun, rfl⟩, ht, rs.reverse, rs.reverse_perm.trans hperm, List.map_reverse,
    List.pairwise_reverse.mpr hrs⟩

theorem outcome_sort_of_length_le (h : items.length ≤ 1) : outcome (sort less items) s = (.ok items, s) := by
  match items with
  | [] => rfl
  | [x] => rfl

end

end ResourceTemplate.Sort

namespace ResourceTemplate

theorem Catalog.lookup?_sort {σ : Type} {f : String} (hf : Name.same f "sort" = true) :
    lookup? σ f = some (.special .sort) :=
  (lookup?_congr hf).trans rfl

namespace Expr

variable {σ : Type} {h : Host σ} {scopes : Scopes} {source lambda : Expr} {parts : List Expr} {name keyword : String}
  {span place : Span} {items sorted : List Json} {s t u : σ}

def lambdaLess (h : Host σ) (scopes : Scopes) (lambda : Expr) (parts : List Expr) (x y : Json) : EvalM σ Bool := do
  Host.lift (verdict "sort" (← (meaning h lambda).apply parts scopes [x, y]))

/-- Whether a lambda, from any state of a kind, gives for any two of the items the truth value whether the first is
less, and leaves a state of the kind. -/
def Compares (h : Host σ) (scopes : Scopes) (lambda : Expr) (parts : List Expr) (P : σ → Prop) (items : List Json)
    (lt : Json → Json → Bool) : Prop :=
  ∀ s, P s → ∀ x ∈ items, ∀ y ∈ items, ∃ t,
    outcome ((meaning h lambda).apply parts scopes [x, y]) s = (.ok (.bool (lt x y)), t) ∧ P t

theorem Compares.decides {P : σ → Prop} {lt : Json → Json → Bool} (hc : Compares h scopes lambda parts P items lt) :
    Sort.Decides (lambdaLess h scopes lambda parts) P items lt := by
  intro s hs x hx y hy
  obtain ⟨t, ht, hP⟩ := hc s hs x hx y hy
  exact ⟨t, outcome_bind_eq_ok.mpr ⟨_, t, ht, rfl⟩, hP⟩

theorem outcome_sort (hname : Name.same name "sort" = true) (hlambda : lambdaParts name 1 lambda = .ok parts)
    (hsource : outcome (eval h scopes source) s = (.ok (.arr items), t))
    (hsort : outcome (Sort.sort (lambdaLess h scopes lambda parts) items) t = (.ok sorted, u)) :
    outcome (eval h scopes (.call none name [source, lambda] span)) s = (.ok (.arr sorted), u) := by
  have hf : (meaning h lambda).expr = lambda := by cases lambda <;> rfl
  have hitems : outcome (Meaning.items name scopes (meaning h source)) s = (.ok items, t) :=
    outcome_bind_eq_ok.mpr ⟨_, t, hsource, rfl⟩
  change outcome (Meaning.call h none name (meanings h [source, lambda]) span scopes) s = _
  unfold Meaning.call
  rw [Catalog.lookup?_sort hname]
  change outcome (Meaning.sort name scopes (meaning h source) (meaning h lambda)) s = _
  unfold Meaning.sort
  rw [outcome_bind, hitems, hf, hlambda]
  exact outcome_bind_eq_ok.mpr ⟨parts, t, rfl, outcome_bind_eq_ok.mpr ⟨sorted, u, hsort, rfl⟩⟩

/-- An array is sorted stably by every lambda that is a strict weak order on its items, and an array of at most one item
is left as it is by every lambda. -/
theorem sort_stably (hname : Name.same name "sort" = true) (hkeyword : Name.same keyword "lambda" = true)
    (hsource : outcome (eval h scopes source) s = (.ok (.arr items), t)) :
    (items.length ≤ 1 →
      outcome (eval h scopes (.call none name [source, .call none keyword parts place] span)) s =
        (.ok (.arr items), t)) ∧
    ∀ (P : σ → Prop) (lt : Json → Json → Bool), P t →
      Compares h scopes (.call none keyword parts place) parts P items lt → Sort.StrictWeakOrder lt items →
      ∃ sorted u,
        outcome (eval h scopes (.call none name [source, .call none keyword parts place] span)) s =
          (.ok (.arr sorted), u) ∧
        P u ∧ sorted.Perm items ∧ Sort.StablySorted lt items sorted := by
  have hlambda : lambdaParts name 1 (.call none keyword parts place) = .ok parts := if_pos hkeyword
  refine ⟨fun hlength => outcome_sort hname hlambda hsource (Sort.outcome_sort_of_length_le hlength),
    fun P lt ht hc horder => ?_⟩
  obtain ⟨sorted, u, hsort, hu, hsorted⟩ := Sort.outcome_sort hc.decides horder ht
  exact ⟨sorted, u, outcome_sort hname hlambda hsource hsort, hu, hsorted.perm, hsorted⟩

def lengthOf (x : String) : Expr :=
  .call none "length" [.call none "lambdaVariables" [.str x] ⟨0, 0⟩] ⟨0, 0⟩

/-- The parts of a lambda whether its first text is shorter than its second. -/
def shorterParts : List Expr := [.str "x", .str "y", .call none "less" [lengthOf "x", lengthOf "y"] ⟨0, 0⟩]

/-- Texts are sorted by their lengths, and those of one length stay in their order. -/
theorem sort_stably_by_length :
    ∃ sorted u,
      outcome (eval Standalone.host [] (.call none "sort"
        [.call none "createArray" [.str "bb", .str "c", .str "a"] ⟨0, 0⟩, .call none "lambda" shorterParts ⟨0, 0⟩]
        ⟨0, 0⟩)) {} = (.ok (.arr sorted), u) ∧
      sorted.Perm [.str "bb", .str "c", .str "a"] ∧
      Sort.StablySorted (fun x y => decide (x.display.length < y.display.length))
        [.str "bb", .str "c", .str "a"] sorted := by
  have hname : Name.same "sort" "sort" = true := rfl
  have hkeyword : Name.same "lambda" "lambda" = true := rfl
  have hsource : outcome (eval Standalone.host []
      (.call none "createArray" [.str "bb", .str "c", .str "a"] ⟨0, 0⟩)) {} =
        (.ok (.arr [.str "bb", .str "c", .str "a"]), {}) := rfl
  have hcompares : Compares Standalone.host [] (.call none "lambda" shorterParts ⟨0, 0⟩) shorterParts (fun _ => True)
      [.str "bb", .str "c", .str "a"] fun x y => decide (x.display.length < y.display.length) := by
    intro s _ x hx y hy
    simp only [List.mem_cons, List.not_mem_nil, or_false] at hx hy
    rcases hx with rfl | rfl | rfl <;> rcases hy with rfl | rfl | rfl <;> exact ⟨s, rfl, trivial⟩
  obtain ⟨sorted, u, hsort, -, hsorted⟩ := (sort_stably hname hkeyword hsource).2 (fun _ => True) _ trivial hcompares
    ⟨by decide, by decide, by decide⟩
  exact ⟨sorted, u, hsort, hsorted⟩

end Expr
end ResourceTemplate
