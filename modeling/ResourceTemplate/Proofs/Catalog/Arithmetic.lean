import ResourceTemplate.Catalog.Surroundings
import ResourceTemplate.Expr.Standalone
import ResourceTemplate.Proofs.Json.Integers
import ResourceTemplate.Proofs.Outcome

namespace ResourceTemplate

namespace Integer

def Fits (n : Int) : Prop := -(maxInt64 : Int) - 1 ≤ n ∧ n ≤ maxInt64

instance (n : Int) : Decidable (Fits n) := by
  unfold Fits
  infer_instance

theorem wrap64_of_fits {n : Int} (h : Fits n) : wrap64 n = n := by
  obtain ⟨hl, hu⟩ := h
  simp only [maxInt64] at hl hu
  exact Int.bmod_eq_of_le (by simp only [maxNat64]; omega) (by simp only [maxNat64]; omega)

end Integer

theorem Number.inRange?_of_fits {n : Int} (h : Integer.Fits n) : inRange? n = some n := if_pos h

theorem Number.inRange?_of_not_fits {n : Int} (h : ¬ Integer.Fits n) : inRange? n = none := if_neg h

namespace Binary64

theorem roundHalfEven_mul (num den : Nat) {k : Nat} (hk : 0 < k) :
    roundHalfEven (num * k) (den * k) = roundHalfEven num den := by
  have hless (a b : Nat) : 2 * (a * k) < b * k ↔ 2 * a < b := by
    rw [← Nat.mul_assoc]
    exact Nat.mul_lt_mul_right hk
  have hmore (a b : Nat) : b * k < 2 * (a * k) ↔ b < 2 * a := by
    rw [← Nat.mul_assoc]
    exact Nat.mul_lt_mul_right hk
  unfold roundHalfEven
  simp only [Nat.mul_div_mul_right _ _ hk, Nat.mul_mod_mul_right, hless, hmore]

/-- Rounding away the last 11 bits of a number of 64 bits leaves the least such number only up to half a step. -/
theorem roundHalfEven_cases {n : Nat} (hl : Integer.maxInt64 < n) (hu : n ≤ Integer.maxNat64) :
    roundHalfEven n 2048 ≤ Nat.pow 2 53 ∧
      (roundHalfEven n 2048 = Nat.pow 2 52 ∧ n ≤ Integer.maxInt64 + 1025 ∨
        Nat.pow 2 52 < roundHalfEven n 2048 ∧ Integer.maxInt64 + 1025 < n) := by
  unfold roundHalfEven
  simp only [Integer.maxInt64, Integer.maxNat64, Nat.pow_eq, beq_iff_eq] at hl hu ⊢
  repeat' split
  all_goals omega

/-- A number of 64 bits keeps 53 of them: the last 11 are rounded away. -/
theorem magnitude_ofRatio {n : Nat} (hl : Integer.maxInt64 < n) (hu : n ≤ Integer.maxNat64) :
    ∃ x, ofRatio false n 1 = some x ∧ x.negative = false ∧
      x.magnitude = roundHalfEven n 2048 * 2048 * Nat.pow 2 1074 := by
  obtain ⟨hmost, hleast⟩ := roundHalfEven_cases hl hu
  simp only [Integer.maxInt64, Integer.maxNat64, Nat.pow_eq] at hl hu hmost hleast
  have hl63 : 2 ^ 63 ≤ n := by omega
  have hu64 : n < 2 ^ 64 := by omega
  -- The exponent of the unit stays a name: its power is never computed.
  obtain ⟨k, hk⟩ : ∃ k, k = 1074 := ⟨1074, rfl⟩
  unfold ofRatio
  rw [← hk]
  have hunit : 0 < 2 ^ k := Nat.two_pow_pos k
  have hunits : ¬ n * 2 ^ k < 1 := by
    have := Nat.mul_pos (Nat.lt_of_lt_of_le (Nat.two_pow_pos 63) hl63) hunit
    omega
  have hlog : (n * 2 ^ k).log2 = 63 + k := by
    rw [Nat.log2_eq_iff (by omega), Nat.add_right_comm, Nat.pow_add, Nat.pow_add]
    exact ⟨Nat.mul_le_mul_right _ hl63, Nat.mul_lt_mul_of_pos_right hu64 hunit⟩
  have hscale : 63 + k + 1 - 53 = 11 + k := by omega
  have hround : roundHalfEven (n * 2 ^ k) (2 ^ (11 + k)) = roundHalfEven n 2048 := by
    rw [Nat.pow_add, roundHalfEven_mul _ _ hunit]
  simp only [Nat.pow_eq, Nat.div_one, Nat.one_mul, if_neg hunits, hlog, hscale, hround]
  by_cases hcarry : roundHalfEven n 2048 = 2 ^ 53
  · have hcanonical : Canonical (2 ^ 52) (11 + k + 1) := ⟨by decide, by omega, .inl (by decide)⟩
    refine ⟨⟨false, 2 ^ 52, 11 + k + 1, hcanonical⟩, ?_, rfl, ?_⟩
    · simp only [hcarry, beq_self_eq_true, if_true, dif_pos hcanonical]
      rfl
    · show 2 ^ 52 * 2 ^ (11 + k + 1) = roundHalfEven n 2048 * 2048 * 2 ^ k
      rw [hcarry, Nat.pow_add 2 (11 + k) 1, Nat.pow_add 2 11 k]
      omega
  · have hcanonical : Canonical (roundHalfEven n 2048) (11 + k) :=
      ⟨Nat.lt_of_le_of_ne hmost hcarry, by omega, .inl (by show 2 ^ 52 ≤ _; omega)⟩
    refine ⟨⟨false, roundHalfEven n 2048, 11 + k, hcanonical⟩, ?_, rfl, ?_⟩
    · simp only [beq_eq_false_iff_ne.mpr hcarry, if_neg Bool.false_ne_true, dif_pos hcanonical]
      rfl
    · rw [magnitude, Nat.pow_eq, Nat.pow_add, ← Nat.mul_assoc]

end Binary64

/-- A double of 63 bits or more is an integer only if it is the bound itself, which counts as the greatest integer. -/
theorem Catalog.Arithmetic.ofBinary64?_of_magnitude {x : Binary64} {m : Nat} (hs : x.negative = false)
    (hm : x.magnitude = m * Nat.pow 2 1074) (hl : Integer.maxInt64 < m) :
    ofBinary64? x = if m = Integer.maxInt64 + 1 then some (Integer.maxInt64 : Int) else none := by
  obtain ⟨k, hk⟩ : ∃ k, k = 1074 := ⟨1074, rfl⟩
  have hunit : 0 < 2 ^ k := Nat.two_pow_pos k
  have htruncate : x.truncate = m := by
    unfold Binary64.truncate
    rw [hs, hm, ← hk, Nat.pow_eq, Nat.mul_div_cancel _ hunit]
    rfl
  have hbound : Nat.pow 2 (63 + 1074) < x.magnitude ↔ Integer.maxInt64 + 1 < m := by
    rw [hm, ← hk, Nat.pow_eq, Nat.pow_eq, Nat.pow_add]
    exact Nat.mul_lt_mul_right hunit
  unfold ofBinary64?
  rw [htruncate]
  simp only [hbound]
  clear hm hbound
  by_cases hm : m = Integer.maxInt64 + 1
  · rw [if_neg (by omega), if_pos (by omega), if_pos hm]
  · rw [if_pos (by omega), if_neg hm]

/-- Of the numbers above the greatest integer, those count as the greatest that are not above half a step of doubles. -/
theorem Catalog.Arithmetic.ofBinary64?_int {z : Int} (hl : (Integer.maxInt64 : Int) < z) (hu : z ≤ Integer.maxNat64) :
    ofBinary64? (Number.int z).toBinary64 =
      if z ≤ Integer.maxInt64 + 1025 then some (Integer.maxInt64 : Int) else none := by
  obtain ⟨n, rfl⟩ := Int.eq_ofNat_of_zero_le (show 0 ≤ z by omega)
  have hl := Int.ofNat_lt.mp hl
  have hu := Int.ofNat_le.mp hu
  obtain ⟨x, hx, hs, hm⟩ := Binary64.magnitude_ofRatio hl hu
  have hdouble : (Number.int n).toBinary64 = x := by
    have hsign : decide ((n : Int) < 0) = false := decide_eq_false (by omega)
    have hint : Binary64.ofInt n = some x := by rw [Binary64.ofInt, hsign, Int.natAbs_natCast, hx]
    simp only [Number.toBinary64, hint, Option.getD_some]
  rw [hdouble]
  have hcases := (Binary64.roundHalfEven_cases hl hu).2
  generalize Binary64.roundHalfEven n 2048 = m at hm hcases
  simp only [Integer.maxInt64, Nat.pow_eq] at hcases
  rw [ofBinary64?_of_magnitude hs hm (by clear hm; simp only [Integer.maxInt64]; omega)]
  clear hm
  simp only [Integer.maxInt64]
  have hiff : m * 2048 = 9223372036854775807 + 1 ↔ (n : Int) ≤ 9223372036854775807 + 1025 := by omega
  simp only [hiff]
  rfl

theorem Args.int_of_fits {function : String} {values : List Json} {i : Nat} {n : Int}
    (hi : values[i]? = some (.int n)) (hn : Integer.Fits n) : (⟨function, values⟩ : Args).int i = .ok n := by
  have hvalue : (⟨function, values⟩ : Args).value i = .ok (.int n) := by
    unfold Args.value
    rw [hi]
  unfold Args.int
  rw [hvalue]
  dsimp only [bind, Except.bind, Json.int, Number.toInt64?]
  rw [Number.inRange?_of_fits hn]

theorem Args.ints_of_fits (function : String) {x y : Int} (hx : Integer.Fits x) (hy : Integer.Fits y) :
    (⟨function, [.int x, .int y]⟩ : Args).exactly 2 = .ok () ∧
      (⟨function, [.int x, .int y]⟩ : Args).int 0 = .ok x ∧ (⟨function, [.int x, .int y]⟩ : Args).int 1 = .ok y :=
  ⟨rfl, int_of_fits rfl hx, int_of_fits rfl hy⟩

namespace Catalog

/-- Whether a call gives the value when it is defined and the integers in the value have 64 bits, and an error in every
other case. -/
structure ExactOrRefused (isDefined : Prop) (integers : List Int) (value : Json) (r : Except ExprError Json) :
    Prop where
  exact : isDefined → (∀ n ∈ integers, Integer.Fits n) → r = .ok value
  refused : ¬(isDefined ∧ ∀ n ∈ integers, Integer.Fits n) → ∃ e, r = .error e

theorem ExactOrRefused.of_ite {isDefined p : Prop} [Decidable p] {integers : List Int} {value : Json} {e : ExprError}
    (hp : p ↔ isDefined ∧ ∀ n ∈ integers, Integer.Fits n) :
    ExactOrRefused isDefined integers value (if p then .ok value else .error e) where
  exact hdefined hfits := if_pos (hp.mpr ⟨hdefined, hfits⟩)
  refused hnot := ⟨e, if_neg fun h => hnot (hp.mp h)⟩

namespace Arithmetic

variable (name : String) {x y : Int}

theorem binary_eq (op : Int → Int → Int) (hx : Integer.Fits x) (hy : Integer.Fits y) : ∃ e,
    binary op ⟨name, [.int x, .int y]⟩ = if Integer.Fits (op x y) then .ok (.int (op x y)) else .error e := by
  obtain ⟨hcount, hfirst, hsecond⟩ := Args.ints_of_fits name hx hy
  unfold binary
  rw [hcount, hfirst, hsecond]
  dsimp only [bind, Except.bind]
  by_cases h : Integer.Fits (op x y)
  · simp only [Number.inRange?_of_fits h, if_pos h]
    exact ⟨default, rfl⟩
  · simp only [Number.inRange?_of_not_fits h, if_neg h]
    exact ⟨_, rfl⟩

theorem binary_exactOrRefused (op : Int → Int → Int) (hx : Integer.Fits x) (hy : Integer.Fits y) :
    ExactOrRefused True [op x y] (.int (op x y)) (binary op ⟨name, [.int x, .int y]⟩) := by
  obtain ⟨e, he⟩ := binary_eq name op hx hy
  rw [he]
  exact .of_ite (by simp)

theorem dividing_eq (own : String) (op : Int → Int → Int) (hx : Integer.Fits x) (hy : Integer.Fits y) : ∃ e,
    dividing own op ⟨name, [.int x, .int y]⟩ =
      if y ≠ 0 ∧ Integer.Fits (Int.tdiv x y) then .ok (.int (op x y)) else .error e := by
  obtain ⟨hcount, hfirst, hsecond⟩ := Args.ints_of_fits name hx hy
  unfold dividing
  rw [hcount, hfirst, hsecond]
  dsimp only [bind, Except.bind]
  by_cases hy0 : y = 0
  · subst hy0
    simp only [ne_eq, not_true_eq_false, false_and, if_false]
    exact ⟨_, rfl⟩
  · simp only [beq_eq_false_iff_ne.mpr hy0, if_neg Bool.false_ne_true, ne_eq, hy0, not_false_eq_true, true_and]
    by_cases h : Integer.Fits (Int.tdiv x y)
    · simp only [Number.inRange?_of_fits h, if_pos h]
      exact ⟨default, rfl⟩
    · simp only [Number.inRange?_of_not_fits h, if_neg h]
      exact ⟨_, rfl⟩

theorem div_exactOrRefused (hx : Integer.Fits x) (hy : Integer.Fits y) :
    ExactOrRefused (y ≠ 0) [Int.tdiv x y] (.int (Int.tdiv x y)) (div ⟨name, [.int x, .int y]⟩) := by
  obtain ⟨e, he⟩ := dividing_eq name "div" Int.tdiv hx hy
  rw [div, he]
  exact .of_ite (by simp)

theorem fits_tdiv_iff (hx : Integer.Fits x) (h0 : y ≠ 0) :
    Integer.Fits (Int.tdiv x y) ↔ ¬(x = -(Integer.maxInt64 : Int) - 1 ∧ y = -1) := by
  have hquotient : (Int.tdiv x y).natAbs = x.natAbs / y.natAbs := Int.natAbs_tdiv x y
  simp only [Integer.Fits, Integer.maxInt64] at *
  by_cases h1 : y = -1
  · subst h1
    have hneg : Int.tdiv x (-1) = -x := by rw [Int.tdiv_neg, Int.tdiv_one]
    omega
  · by_cases h2 : y = 1
    · subst h2
      rw [Int.tdiv_one]
      omega
    · have hhalf : x.natAbs / y.natAbs ≤ x.natAbs / 2 := Nat.div_le_div_left (by omega) (by decide)
      omega

theorem fits_tmod (hy : Integer.Fits y) (h0 : y ≠ 0) : Integer.Fits (Int.tmod x y) := by
  have hrest : (Int.tmod x y).natAbs = x.natAbs % y.natAbs := Int.natAbs_tmod x y
  have hless : x.natAbs % y.natAbs < y.natAbs := Nat.mod_lt _ (by omega)
  simp only [Integer.Fits, Integer.maxInt64] at *
  omega

theorem mod_exactOrRefused (hx : Integer.Fits x) (hy : Integer.Fits y) :
    (¬(x = -(Integer.maxInt64 : Int) - 1 ∧ y = -1) →
      ExactOrRefused (y ≠ 0) [Int.tmod x y] (.int (Int.tmod x y)) (mod ⟨name, [.int x, .int y]⟩)) ∧
    (x = -(Integer.maxInt64 : Int) - 1 ∧ y = -1 → ∃ e, mod ⟨name, [.int x, .int y]⟩ = .error e) := by
  obtain ⟨e, he⟩ := dividing_eq name "mod" Int.tmod hx hy
  rw [mod, he]
  refine ⟨fun hpoint => .of_ite ?_, fun hpoint => ⟨e, if_neg fun h => ?_⟩⟩
  · simp only [List.mem_singleton, forall_eq]
    exact and_congr_right fun h0 => iff_of_true ((fits_tdiv_iff hx h0).mpr hpoint) (fits_tmod hy h0)
  · exact (fits_tdiv_iff hx h.1).mp h.2 hpoint

theorem range_eq (hx : Integer.Fits x) (hy : 0 ≤ y) (hmax : y ≤ maxRange) : ∃ e,
    range ⟨name, [.int x, .int y]⟩ = if Integer.Fits (x + y)
      then .ok (.arr ((List.range y.toNat).map fun (i : Nat) => .int (x + i))) else .error e := by
  have hyFits : Integer.Fits y := by
    simp only [maxRange, Integer.Fits, Integer.maxInt64] at *
    omega
  obtain ⟨hcount, hfirst, hsecond⟩ := Args.ints_of_fits name hx hyFits
  have hallowed : (decide (y < 0) || decide (maxRange < y)) = false := by
    rw [Bool.or_eq_false_iff, decide_eq_false_iff_not, decide_eq_false_iff_not]
    exact ⟨Int.not_lt.mpr hy, Int.not_lt.mpr hmax⟩
  unfold range
  rw [hcount, hfirst, hsecond]
  dsimp only [bind, Except.bind]
  rw [hallowed]
  simp only [if_neg Bool.false_ne_true]
  by_cases h : Integer.Fits (x + y)
  · simp only [Number.inRange?_of_fits h, if_pos h]
    exact ⟨default, rfl⟩
  · simp only [Number.inRange?_of_not_fits h, if_neg h]
    exact ⟨_, rfl⟩

theorem range_exactOrRefused (hx : Integer.Fits x) (hy : 0 ≤ y) (hmax : y ≤ maxRange) :
    (¬(0 < y ∧ x + y = Integer.maxInt64 + 1) →
      ExactOrRefused True ((List.range y.toNat).map fun (i : Nat) => x + i)
        (.arr ((List.range y.toNat).map fun (i : Nat) => .int (x + i))) (range ⟨name, [.int x, .int y]⟩)) ∧
    (0 < y ∧ x + y = Integer.maxInt64 + 1 → ∃ e, range ⟨name, [.int x, .int y]⟩ = .error e) := by
  obtain ⟨e, he⟩ := range_eq name hx hy hmax
  rw [he]
  refine ⟨fun hpoint => .of_ite ?_, fun hpoint => ⟨e, if_neg fun h => ?_⟩⟩
  · simp only [true_and, List.forall_mem_map, List.mem_range, Integer.Fits] at hx ⊢
    refine ⟨fun h i hi => by omega, fun h => ?_⟩
    by_cases hempty : y = 0
    · omega
    · have hlast := h (y.toNat - 1) (by omega)
      omega
  · have := h.2
    omega

theorem int_of_toInt64 {n : Number} {z : Int} (h : n.toInt64? = some z) : int ⟨name, [.num n]⟩ = .ok (.int z) := by
  have hvalue : (⟨name, [.num n]⟩ : Args).value 0 = .ok (.num n) := rfl
  have hcount : (⟨name, [.num n]⟩ : Args).exactly 1 = .ok () := rfl
  unfold int
  rw [hcount, hvalue]
  dsimp only [bind, Except.bind]
  rw [h]
  rfl

/-- A number that is no integer of 64 bits goes through the doubles. -/
theorem int_of_toInt64_none {n : Number} (h : n.toInt64? = none) : ∃ e, int ⟨name, [.num n]⟩ =
    match ofBinary64? n.toBinary64 with | some z => .ok (.int z) | none => .error e := by
  have hvalue : (⟨name, [.num n]⟩ : Args).value 0 = .ok (.num n) := rfl
  have hcount : (⟨name, [.num n]⟩ : Args).exactly 1 = .ok () := rfl
  unfold int
  rw [hcount, hvalue]
  dsimp only [bind, Except.bind]
  rw [h]
  cases ofBinary64? n.toBinary64 with
  | some z => exact ⟨default, rfl⟩
  | none => exact ⟨_, rfl⟩

/-- The greatest integers that `int` takes for the greatest of 64 bits: half a step of doubles above it. -/
theorem int_token {z : Int} {cs : List Char} (ht : Number.IsToken z cs) (hl : -(Integer.maxInt64 : Int) - 1 ≤ z)
    (hu : z ≤ Integer.maxNat64) : ∃ n, Number.read? cs = some (n, []) ∧
      (¬((Integer.maxInt64 : Int) < z ∧ z ≤ Integer.maxInt64 + 1025) →
        ExactOrRefused True [z] (.int z) (int ⟨name, [.num n]⟩)) ∧
      ((Integer.maxInt64 : Int) < z ∧ z ≤ Integer.maxInt64 + 1025 →
        int ⟨name, [.num n]⟩ = .ok (.int Integer.maxInt64)) := by
  have hend : Number.Ends [] := fun c hc => by cases hc
  have hread := ht.read? hl hu hend
  rw [List.append_nil] at hread
  rcases hread with hread | ⟨rfl, hread⟩
  · refine ⟨.int z, hread, ?_⟩
    by_cases hz : Integer.Fits z
    · have hint : int ⟨name, [.num (.int z)]⟩ = .ok (.int z) := int_of_toInt64 name (Number.inRange?_of_fits hz)
      refine ⟨fun _ => ⟨fun _ _ => hint, fun h => absurd ⟨trivial, by simpa using hz⟩ h⟩, fun h => ?_⟩
      exact absurd hz.2 (Int.not_le.mpr h.1)
    · have habove : (Integer.maxInt64 : Int) < z := Int.not_le.mp fun h => hz ⟨hl, h⟩
      obtain ⟨e, he⟩ := int_of_toInt64_none name (n := .int z) (Number.inRange?_of_not_fits hz)
      rw [ofBinary64?_int habove hu] at he
      constructor
      · intro hpoint
        rw [if_neg fun h => hpoint ⟨habove, h⟩] at he
        exact ⟨fun _ h => absurd (h z (List.mem_singleton_self z)) hz, fun _ => ⟨e, he⟩⟩
      · intro hpoint
        rwa [if_pos hpoint.2] at he
  · refine ⟨_, hread, fun _ => ⟨fun _ _ => ?_, fun h => absurd ⟨trivial, by decide⟩ h⟩, fun h => absurd h.1 (by decide)⟩
    obtain ⟨e, he⟩ := int_of_toInt64_none name (n := .float (Binary64.zero true)) rfl
    have hzero : ofBinary64? (Number.float (Binary64.zero true)).toBinary64 = some 0 := by decide +kernel
    simp only [hzero] at he
    exact he

end Arithmetic

namespace Surroundings

variable {σ : Type} (name : String)

theorem loopAndOffset_eq (loop : Option String) {offset : Int} (h : Integer.Fits offset) :
    loopAndOffset ⟨name, (loop.map .str).toList ++ [.int offset]⟩ = .ok (loop, offset) := by
  cases loop with
  | none =>
    have hint := @Args.int_of_fits name [.int offset] 0 offset rfl h
    simp only [Option.map_none, Option.toList_none, List.nil_append, loopAndOffset, bind, Except.bind, Json.int]
    rw [← Json.int, hint]
    rfl
  | some loop =>
    have hcount : (⟨name, [.str loop, .int offset]⟩ : Args).expect 0 (some 2) = .ok () := rfl
    have hstring : (⟨name, [.str loop, .int offset]⟩ : Args).string 0 = .ok loop := rfl
    have hint := @Args.int_of_fits name [.str loop, .int offset] 1 offset rfl h
    simp only [Option.map_some, Option.toList_some, List.cons_append, List.nil_append, loopAndOffset, hcount, bind,
      Except.bind, hstring, hint]
    rfl

theorem copyIndex_exactOrRefused {h : Host σ} {s : σ} {loop : Option String} {index offset : Int}
    (hindex : h.copyIndex loop s = .ok index) (hoffset : Integer.Fits offset) : ∃ r,
      outcome (copyIndex h ⟨name, (loop.map .str).toList ++ [.int offset]⟩) s = (r, s) ∧
        ExactOrRefused True [index + offset] (.int (index + offset)) r := by
  have hask : outcome (Host.ask (h.copyIndex loop)) s = (.ok index, s) := by rw [← hindex]; rfl
  rw [copyIndex, loopAndOffset_eq name loop hoffset, outcome_bind, Host.outcome_lift]
  dsimp only
  rw [outcome_bind, hask]
  dsimp only
  by_cases hfits : Integer.Fits (index + offset)
  · rw [Number.inRange?_of_fits hfits]
    exact ⟨_, rfl, fun _ _ => rfl, fun hnot => absurd ⟨trivial, by simpa using hfits⟩ hnot⟩
  · rw [Number.inRange?_of_not_fits hfits]
    exact ⟨_, rfl, fun _ hall => absurd (hall _ (List.mem_singleton_self _)) hfits, fun _ => ⟨_, rfl⟩⟩

end Surroundings

open Arithmetic Surroundings in
/-- Arithmetic is exact or refused, but for three places near the limits: a remainder of the least integer by minus one,
a range that ends with the greatest integer, and a number that is above the greatest integer and not above it by more
than half a step of doubles, which `int` takes for the greatest. -/
theorem exact_or_refused (name : String) :
    (∀ x y, Integer.Fits x → Integer.Fits y →
      ExactOrRefused True [x + y] (.int (x + y)) (add ⟨name, [.int x, .int y]⟩) ∧
      ExactOrRefused True [x - y] (.int (x - y)) (sub ⟨name, [.int x, .int y]⟩) ∧
      ExactOrRefused True [x * y] (.int (x * y)) (mul ⟨name, [.int x, .int y]⟩) ∧
      ExactOrRefused (y ≠ 0) [Int.tdiv x y] (.int (Int.tdiv x y)) (div ⟨name, [.int x, .int y]⟩) ∧
      (¬(x = -(Integer.maxInt64 : Int) - 1 ∧ y = -1) →
        ExactOrRefused (y ≠ 0) [Int.tmod x y] (.int (Int.tmod x y)) (mod ⟨name, [.int x, .int y]⟩)) ∧
      (x = -(Integer.maxInt64 : Int) - 1 ∧ y = -1 → ∃ e, mod ⟨name, [.int x, .int y]⟩ = .error e)) ∧
    (∀ x y, Integer.Fits x → 0 ≤ y → y ≤ maxRange →
      (¬(0 < y ∧ x + y = Integer.maxInt64 + 1) →
        ExactOrRefused True ((List.range y.toNat).map fun (i : Nat) => x + i)
          (.arr ((List.range y.toNat).map fun (i : Nat) => .int (x + i))) (range ⟨name, [.int x, .int y]⟩)) ∧
      (0 < y ∧ x + y = Integer.maxInt64 + 1 → ∃ e, range ⟨name, [.int x, .int y]⟩ = .error e)) ∧
    (∀ (σ : Type) (h : Host σ) s loop index offset, h.copyIndex loop s = .ok index → Integer.Fits offset → ∃ r,
      outcome (copyIndex h ⟨name, (loop.map .str).toList ++ [.int offset]⟩) s = (r, s) ∧
        ExactOrRefused True [index + offset] (.int (index + offset)) r) ∧
    ∀ z cs, Number.IsToken z cs → -(Integer.maxInt64 : Int) - 1 ≤ z → z ≤ Integer.maxNat64 →
      ∃ n, Number.read? cs = some (n, []) ∧
        (¬((Integer.maxInt64 : Int) < z ∧ z ≤ Integer.maxInt64 + 1025) →
          ExactOrRefused True [z] (.int z) (int ⟨name, [.num n]⟩)) ∧
        ((Integer.maxInt64 : Int) < z ∧ z ≤ Integer.maxInt64 + 1025 →
          int ⟨name, [.num n]⟩ = .ok (.int Integer.maxInt64)) := by
  refine ⟨fun x y hx hy => ?_, fun x y hx hy hmax => range_exactOrRefused name hx hy hmax,
    fun _ _ _ _ _ _ hindex hoffset => copyIndex_exactOrRefused name hindex hoffset,
    fun z cs ht hl hu => int_token name ht hl hu⟩
  exact ⟨binary_exactOrRefused name _ hx hy, binary_exactOrRefused name _ hx hy, binary_exactOrRefused name _ hx hy,
    div_exactOrRefused name hx hy, mod_exactOrRefused name hx hy⟩

open Arithmetic Surroundings in
theorem exact_or_refused_near_limits :
    add ⟨"add", [.int 9223372036854775806, .int 1]⟩ = .ok (.int 9223372036854775807) ∧
      (∃ e, add ⟨"add", [.int 9223372036854775807, .int 1]⟩ = .error e) ∧
      mod ⟨"mod", [.int (-7), .int 2]⟩ = .ok (.int (-1)) ∧ (∃ e, mod ⟨"mod", [.int 7, .int 0]⟩ = .error e) ∧
      range ⟨"range", [.int 5, .int 3]⟩ = .ok (.arr [.int 5, .int 6, .int 7]) ∧
      (outcome (copyIndex Standalone.host ⟨"copyIndex", [.str "loop", .int 3]⟩) { loops := [(some "loop", 2)] }).1 =
        .ok (.int 5) ∧
      (∃ e, int ⟨"int", [.num (.int 18446744073709551615)]⟩ = .error e) := by
  have hbinary (x y : Int) (hx : Integer.Fits x) (hy : Integer.Fits y) := (exact_or_refused "add").1 x y hx hy
  have hmod (x y : Int) (hx : Integer.Fits x) (hy : Integer.Fits y) := ((exact_or_refused "mod").1 x y hx hy).2.2.2.2.1
  have hrange := ((exact_or_refused "range").2.1 5 3 (by decide) (by decide) (by decide)).1 (by decide)
  obtain ⟨r, hindex, hr⟩ := (exact_or_refused "copyIndex").2.2.1 Standalone Standalone.host
    { loops := [(some "loop", 2)] } (some "loop") 2 3 rfl (by decide)
  obtain ⟨n, hread, hint, -⟩ := (exact_or_refused "int").2.2.2 18446744073709551615 _ (Number.isToken_text _)
    (by decide) (by decide)
  have hn : Number.read? (Integer.text 18446744073709551615) = some (.int 18446744073709551615, []) := by decide +kernel
  cases hn.symm.trans hread
  refine ⟨(hbinary _ _ (by decide) (by decide)).1.exact trivial (by decide),
    (hbinary _ _ (by decide) (by decide)).1.refused (by decide),
    (hmod _ _ (by decide) (by decide) (by decide)).exact (by decide) (by decide),
    (hmod _ _ (by decide) (by decide) (by decide)).refused (by decide), hrange.exact trivial (by decide),
    (congrArg Prod.fst hindex).trans (hr.exact trivial (by decide)), (hint (by decide)).refused (by decide)⟩

open Arithmetic in
/-- The three places: `int` gives another integer than its token, and a remainder and a range that have 64 bits are
refused. -/
theorem not_exact_or_refused :
    (∃ n, Number.IsToken 9223372036854775808 "9223372036854775808".toList ∧
      Number.read? "9223372036854775808".toList = some (n, []) ∧
      int ⟨"int", [.num n]⟩ = .ok (.int 9223372036854775807) ∧
      ¬ ExactOrRefused True [9223372036854775808] (.int 9223372036854775808) (int ⟨"int", [.num n]⟩)) ∧
    ¬ ExactOrRefused ((-1 : Int) ≠ 0) [Int.tmod (-9223372036854775808) (-1)]
      (.int (Int.tmod (-9223372036854775808) (-1))) (mod ⟨"mod", [.int (-9223372036854775808), .int (-1)]⟩) ∧
    ¬ ExactOrRefused True [9223372036854775807] (.arr [.int 9223372036854775807])
      (range ⟨"range", [.int 9223372036854775807, .int 1]⟩) := by
  refine ⟨?_, fun h => ?_, fun h => ?_⟩
  · have htoken : Number.IsToken 9223372036854775808 "9223372036854775808".toList := Number.isToken_text _
    obtain ⟨n, hread, -, hint⟩ := int_token "int" htoken (by decide) (by decide)
    have hgreatest := hint (by decide)
    refine ⟨n, htoken, hread, hgreatest, fun h => ?_⟩
    obtain ⟨e, he⟩ := h.refused (by decide)
    cases hgreatest.symm.trans he
  · obtain ⟨e, he⟩ := (@mod_exactOrRefused "mod" (-9223372036854775808) (-1) (by decide) (by decide)).2 (by decide)
    cases (h.exact (by decide) (by decide)).symm.trans he
  · have hrange := @range_exactOrRefused "range" 9223372036854775807 1 (by decide) (by decide) (by decide)
    obtain ⟨e, he⟩ := hrange.2 (by decide)
    cases (h.exact trivial (by decide)).symm.trans he

end Catalog
end ResourceTemplate
