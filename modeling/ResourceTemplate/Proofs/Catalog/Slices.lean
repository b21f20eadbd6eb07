import ResourceTemplate.Proofs.Catalog.Search

namespace ResourceTemplate.Catalog

open Collections Texts

/-- A value is divided at a place: `take` gives the front and `skip` the back, and they are put together and counted as
the parts of the value that they are. -/
structure Divides (x : Json) (n : Int) (front back : Json) : Prop where
  taken (f : String) : take ⟨f, [x, .int n]⟩ = .ok front
  skipped (f : String) : skip ⟨f, [x, .int n]⟩ = .ok back
  joined (f : String) : concat ⟨f, [front, back]⟩ = .ok x
  counted : ∃ k l : Nat, (∀ f, length ⟨f, [front]⟩ = .ok (.int k)) ∧ (∀ f, length ⟨f, [back]⟩ = .ok (.int l)) ∧
    ∀ f, length ⟨f, [x]⟩ = .ok (.int (k + l))

section

variable (f : String) {n : Int}

theorem Collections.amount_of_fits (x : Json) (hn : Integer.Fits n) :
    amount ⟨f, [x, .int n]⟩ 1 = .ok n.toNat := by
  unfold amount
  rw [Args.int_of_fits rfl hn]
  rfl

theorem Collections.take_string (s : String) (hn : Integer.Fits n) :
    take ⟨f, [.str s, .int n]⟩ = .ok (.str (String.ofList (s.toList.take n.toNat))) := by
  have hcount : (⟨f, [.str s, .int n]⟩ : Args).exactly 2 = .ok () := rfl
  rw [take, hcount, amount_of_fits f _ hn]
  rfl

theorem Collections.take_array (xs : List Json) (hn : Integer.Fits n) :
    take ⟨f, [.arr xs, .int n]⟩ = .ok (.arr (xs.take n.toNat)) := by
  have hcount : (⟨f, [.arr xs, .int n]⟩ : Args).exactly 2 = .ok () := rfl
  rw [take, hcount, amount_of_fits f _ hn]
  rfl

theorem Collections.skip_string (s : String) (hn : Integer.Fits n) :
    skip ⟨f, [.str s, .int n]⟩ = .ok (.str (String.ofList (s.toList.drop n.toNat))) := by
  have hcount : (⟨f, [.str s, .int n]⟩ : Args).exactly 2 = .ok () := rfl
  rw [skip, hcount, amount_of_fits f _ hn]
  rfl

theorem Collections.skip_array (xs : List Json) (hn : Integer.Fits n) :
    skip ⟨f, [.arr xs, .int n]⟩ = .ok (.arr (xs.drop n.toNat)) := by
  have hcount : (⟨f, [.arr xs, .int n]⟩ : Args).exactly 2 = .ok () := rfl
  rw [skip, hcount, amount_of_fits f _ hn]
  rfl

theorem Collections.concat_strings (cs ds : List Char) :
    concat ⟨f, [.str (String.ofList cs), .str (String.ofList ds)]⟩ = .ok (.str (String.ofList (cs ++ ds))) := by
  have htexts : concatTexts 0 [.str (String.ofList cs), .str (String.ofList ds)] = .ok (cs ++ ds) := by
    simp [concatTexts, Json.display, Except.map]
  have hcount : (⟨f, [.str (String.ofList cs), .str (String.ofList ds)]⟩ : Args).expect 1 none = .ok () := rfl
  simp only [concat, hcount, htexts, bind, Except.bind, List.find?_cons, Json.isNull, Bool.not_false]
  rfl

theorem Collections.concat_arrays (xs ys : List Json) :
    concat ⟨f, [.arr xs, .arr ys]⟩ = .ok (.arr (xs ++ ys)) := by
  have hitems : concatArrays 0 [.arr xs, .arr ys] = .ok (xs ++ ys) := by
    simp [concatArrays, Except.map]
  have hcount : (⟨f, [.arr xs, .arr ys]⟩ : Args).expect 1 none = .ok () := rfl
  simp only [concat, hcount, hitems, bind, Except.bind, List.find?_cons, Json.isNull, Bool.not_false]
  rfl

theorem Collections.length_array (xs : List Json) : length ⟨f, [.arr xs]⟩ = .ok (.int (xs.length : Int)) := rfl

end

theorem divides_string (s : String) {n : Int} (hn : Integer.Fits n) :
    Divides (.str s) n (.str (String.ofList (s.toList.take n.toNat)))
      (.str (String.ofList (s.toList.drop n.toNat))) where
  taken f := take_string f s hn
  skipped f := skip_string f s hn
  joined f := by rw [concat_strings, List.take_append_drop, String.ofList_toList]
  counted := by
    have hsum : ((s.toList.take n.toNat).length : Int) + (s.toList.drop n.toNat).length = s.toList.length := by
      rw [← Int.natCast_add, ← List.length_append, List.take_append_drop]
    refine ⟨_, _, fun f => ?_, fun f => ?_, fun f => hsum ▸ length_string f s⟩
    all_goals rw [length_string, String.toList_ofList]

theorem divides_array (xs : List Json) {n : Int} (hn : Integer.Fits n) :
    Divides (.arr xs) n (.arr (xs.take n.toNat)) (.arr (xs.drop n.toNat)) where
  taken f := take_array f xs hn
  skipped f := skip_array f xs hn
  joined f := by rw [concat_arrays, List.take_append_drop]
  counted := by
    have hsum : ((xs.take n.toNat).length : Int) + (xs.drop n.toNat).length = xs.length := by
      rw [← Int.natCast_add, ← List.length_append, List.take_append_drop]
    exact ⟨_, _, fun f => length_array f _, fun f => length_array f _, fun f => hsum ▸ length_array f xs⟩

/-- The range of `substring` is inside the string or refused. -/
theorem Texts.substring_cases (f : String) {s : String} {i n : Int} (hlength : s.toList.length ≤ Integer.maxInt64)
    (hi : Integer.Fits i) (hn : Integer.Fits n) :
    if 0 ≤ i ∧ 0 ≤ n ∧ i + n ≤ s.toList.length then
      substring ⟨f, [.str s, .int i, .int n]⟩ = .ok (.str (String.ofList ((s.toList.drop i.toNat).take n.toNat)))
    else ∃ e, substring ⟨f, [.str s, .int i, .int n]⟩ = .error e := by
  have hcount : (⟨f, [.str s, .int i, .int n]⟩ : Args).expect 2 (some 3) = .ok () := rfl
  have htext : (⟨f, [.str s, .int i, .int n]⟩ : Args).string 0 = .ok s := rfl
  have hstart : (⟨f, [.str s, .int i, .int n]⟩ : Args).int 1 = .ok i := Args.int_of_fits rfl hi
  have hamount : (⟨f, [.str s, .int i, .int n]⟩ : Args).int 2 = .ok n := Args.int_of_fits rfl hn
  simp only [substring, hcount, htext, hstart, hamount, bind, Except.bind, pure, Except.pure, List.length_cons,
    List.length_nil, Nat.reduceAdd, Nat.reduceLT, if_false]
  by_cases hfits : Integer.Fits (i + n)
  · have hinside : (decide (i < 0) || decide (n < 0) || decide ((s.toList.length : Int) < i + n)) = true ↔
        ¬ (0 ≤ i ∧ 0 ≤ n ∧ i + n ≤ s.toList.length) := by
      simp
      omega
    rw [Number.inRange?_of_fits hfits]
    simp only [hinside, ite_not]
    split
    · rfl
    · exact ⟨_, rfl⟩
  · -- a sum of more than 64 bits ends behind every string or starts before it
    have houtside : ¬ (0 ≤ i ∧ 0 ≤ n ∧ i + n ≤ s.toList.length) := by
      unfold Integer.Fits at hfits
      omega
    rw [Number.inRange?_of_not_fits hfits, if_neg houtside]
    exact ⟨_, rfl⟩

/-- Slices are consistent. Every string and every array is divided at every integer of 64 bits, at its start by a
negative one and at its end by one beyond it; and `substring` gives a value exactly if its range lies in the string,
which is then what is taken after skipping. The string has as many characters as an integer of 64 bits can count. -/
theorem slices_consistent :
    (∀ (s : String) (n : Int), Integer.Fits n → Divides (.str s) n (.str (String.ofList (s.toList.take n.toNat)))
      (.str (String.ofList (s.toList.drop n.toNat)))) ∧
    (∀ (xs : List Json) (n : Int), Integer.Fits n →
      Divides (.arr xs) n (.arr (xs.take n.toNat)) (.arr (xs.drop n.toNat))) ∧
    ∀ (s : String) (i n : Int), s.toList.length ≤ Integer.maxInt64 → Integer.Fits i → Integer.Fits n → ∀ f,
      ∃ k : Nat, length ⟨f, [.str s]⟩ = .ok (.int k) ∧
        ((∃ v, substring ⟨f, [.str s, .int i, .int n]⟩ = .ok v) ↔ 0 ≤ i ∧ 0 ≤ n ∧ i + n ≤ k) ∧
        (0 ≤ i ∧ 0 ≤ n ∧ i + n ≤ k → ∃ rest, skip ⟨f, [.str s, .int i]⟩ = .ok rest ∧
          substring ⟨f, [.str s, .int i, .int n]⟩ = take ⟨f, [rest, .int n]⟩) := by
  refine ⟨fun s _ => divides_string s, fun xs _ => divides_array xs, fun s i n hlength hi hn f => ?_⟩
  refine ⟨s.toList.length, length_string f s, ?_⟩
  have hcases := substring_cases f hlength hi hn
  by_cases hinside : 0 ≤ i ∧ 0 ≤ n ∧ i + n ≤ s.toList.length
  · rw [if_pos hinside] at hcases
    refine ⟨iff_of_true ⟨_, hcases⟩ hinside, fun _ => ⟨_, skip_string f s hi, ?_⟩⟩
    rw [hcases, take_string f _ hn, String.toList_ofList]
  · rw [if_neg hinside] at hcases
    obtain ⟨e, he⟩ := hcases
    refine ⟨iff_of_false ?_ hinside, fun h => absurd h hinside⟩
    rintro ⟨v, hv⟩
    rw [he] at hv
    cases hv

/-- Characters of several bytes, the least integer, and a range up to the end of the string. -/
theorem slices_consistent_characters :
    Integer.Fits (-9223372036854775808) ∧ Divides (.str "ñ€😀") (-9223372036854775808) (.str "") (.str "ñ€😀") ∧
      Integer.Fits 1 ∧ Divides (.arr [.null, .bool true]) 1 (.arr [.null]) (.arr [.bool true]) ∧
      "ñ€😀".toList.length ≤ Integer.maxInt64 ∧ Integer.Fits 2 ∧
      substring ⟨"substring", [.str "ñ€😀", .int 1, .int 2]⟩ = take ⟨"substring", [.str "€😀", .int 2]⟩ := by
  have hleast : Integer.Fits (-9223372036854775808) := by decide
  have hone : Integer.Fits 1 := by decide
  have htwo : Integer.Fits 2 := by decide
  have hlength : "ñ€😀".toList.length ≤ Integer.maxInt64 := by decide
  obtain ⟨hstrings, harrays, hranges⟩ := slices_consistent
  obtain ⟨k, hk, -, hslice⟩ := hranges "ñ€😀" 1 2 hlength hone htwo "substring"
  obtain rfl : k = 3 := by
    simp only [length_string, Except.ok.injEq, Json.int, Json.num.injEq, Number.int.injEq] at hk
    exact (Int.ofNat_inj.mp hk).symm
  obtain ⟨rest, hrest, hsubstring⟩ := hslice (by decide)
  obtain rfl : Json.str "€😀" = rest := Except.ok.inj hrest
  exact ⟨hleast, hstrings _ _ hleast, hone, harrays _ _ hone, hlength, htwo, hsubstring⟩

end ResourceTemplate.Catalog
