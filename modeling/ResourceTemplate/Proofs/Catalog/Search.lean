import Mathlib.Data.List.Basic
import ResourceTemplate.Catalog.Collections
import ResourceTemplate.Catalog.Texts
import ResourceTemplate.Proofs.Catalog.Arithmetic
import ResourceTemplate.Text.Case
import ResourceTemplate.Text.Search

namespace ResourceTemplate

namespace Text

variable {pattern cs : List Char} {i : Nat}

theorem isPrefix_of_indexOf? (h : indexOf? pattern cs = some i) : i ≤ cs.length ∧ pattern <+: cs.drop i := by
  induction cs generalizing i with
  | nil =>
    rw [indexOf?] at h
    split at h
    · cases h
      simp_all
    · cases h
  | cons c cs ih =>
    rw [indexOf?] at h
    split at h
    · rename_i hprefix
      cases h
      exact ⟨Nat.zero_le _, List.isPrefixOf_iff_prefix.mp hprefix⟩
    · obtain ⟨j, hj, rfl⟩ := Option.map_eq_some_iff.mp h
      obtain ⟨hle, hprefix⟩ := ih hj
      exact ⟨Nat.succ_le_succ hle, hprefix⟩

theorem isPrefix_of_lastIndexOf? (h : lastIndexOf? pattern cs = some i) :
    i ≤ cs.length ∧ pattern <+: cs.drop i := by
  induction cs generalizing i with
  | nil =>
    rw [lastIndexOf?] at h
    split at h
    · cases h
      simp_all
    · cases h
  | cons c cs ih =>
    rw [lastIndexOf?] at h
    split at h
    · rename_i j hj
      cases h
      obtain ⟨hle, hprefix⟩ := ih hj
      exact ⟨Nat.succ_le_succ hle, hprefix⟩
    · split at h
      · rename_i hprefix
        cases h
        exact ⟨Nat.zero_le _, List.isPrefixOf_iff_prefix.mp hprefix⟩
      · cases h

theorem indexOf?_isSome (h : pattern <:+: cs) : (indexOf? pattern cs).isSome := by
  induction cs with
  | nil => simp [indexOf?, List.infix_nil.mp h]
  | cons c cs ih =>
    rw [indexOf?]
    split
    · rfl
    · rename_i hnot
      rw [List.isPrefixOf_iff_prefix] at hnot
      rw [Option.isSome_map]
      exact ih ((List.infix_cons_iff.mp h).resolve_left hnot)

theorem lastIndexOf?_isSome (h : pattern <:+: cs) : (lastIndexOf? pattern cs).isSome := by
  induction cs with
  | nil => simp [lastIndexOf?, List.infix_nil.mp h]
  | cons c cs ih =>
    rw [lastIndexOf?]
    split
    · rfl
    · rename_i hnone
      rcases List.infix_cons_iff.mp h with hprefix | hinfix
      · rw [if_pos (List.isPrefixOf_iff_prefix.mpr hprefix)]
        rfl
      · have hsome := ih hinfix
        rw [hnone] at hsome
        cases hsome

theorem isInfix_of_contains (h : contains pattern cs = true) : pattern <:+: cs := by
  obtain ⟨i, hi⟩ := Option.isSome_iff_exists.mp h
  exact (isPrefix_of_indexOf? hi).2.isInfix.trans (cs.drop_suffix i).isInfix

end Text

namespace Case

def smallChar (c : Char) : List Char :=
  if c.toNat < 0x80 then [c.toLower] else mapChar lowerExpansions lowerRuns c

theorem length_smallChar {c : Char} (h : c ≠ 'İ') : (smallChar c).length = 1 := by
  have hother : lowerExpansions.lookup c.toNat = none := by
    have hcode : (c.toNat == 0x130) = false := by
      rw [beq_eq_false_iff_ne]
      exact fun he => h (Char.toNat_inj.mp he)
    rw [lowerExpansions, List.lookup_cons, hcode]
    rfl
  unfold smallChar
  split
  · rfl
  · rw [mapChar, hother]
    rfl

theorem lowerFrom_cons {c : Char} (h : c ≠ 'Σ') (before rest : List Char) :
    lowerFrom before (c :: rest) = smallChar c ++ lowerFrom (c :: before) rest := by
  rw [lowerFrom, smallChar]
  simp [h]

theorem lowerFrom_sigma (before rest : List Char) :
    ∃ c, lowerFrom before ('Σ' :: rest) = [c] ++ lowerFrom ('Σ' :: before) rest := by
  rw [lowerFrom]
  split
  · exact ⟨_, rfl⟩
  · rw [if_pos (beq_self_eq_true 'Σ')]
    split
    · exact ⟨'ς', rfl⟩
    · exact ⟨'σ', rfl⟩

/-- Without a capital sigma the small form does not depend on what stands around. -/
theorem lowerFrom_append_of_notMem {cs : List Char} (h : 'Σ' ∉ cs) (before rest : List Char) :
    lowerFrom before (cs ++ rest) = cs.flatMap smallChar ++ lowerFrom (cs.reverse ++ before) rest := by
  induction cs generalizing before with
  | nil => rfl
  | cons c cs ih =>
    rw [List.mem_cons, not_or] at h
    rw [List.cons_append, lowerFrom_cons (Ne.symm h.1), ih h.2, List.flatMap_cons, List.append_assoc]
    simp

theorem lowerFrom_of_notMem {cs : List Char} (h : 'Σ' ∉ cs) (before : List Char) :
    lowerFrom before cs = cs.flatMap smallChar := by
  have hall := lowerFrom_append_of_notMem h before []
  rwa [List.append_nil, lowerFrom, List.append_nil] at hall

/-- A text is put in small letters part by part, and a part without a capital I with a dot keeps its length. -/
theorem lowerFrom_append (before cs rest : List Char) :
    ∃ small, lowerFrom before (cs ++ rest) = small ++ lowerFrom (cs.reverse ++ before) rest ∧
      ('İ' ∉ cs → small.length = cs.length) := by
  induction cs generalizing before with
  | nil => exact ⟨[], rfl, fun _ => rfl⟩
  | cons c cs ih =>
    obtain ⟨small, hsmall, hlength⟩ := ih (c :: before)
    have hshape : (c :: cs).reverse ++ before = cs.reverse ++ c :: before := by simp
    rw [hshape, List.cons_append]
    by_cases hsigma : c = 'Σ'
    · subst hsigma
      obtain ⟨d, hd⟩ := lowerFrom_sigma before (cs ++ rest)
      rw [hd, hsmall, ← List.append_assoc]
      exact ⟨_, rfl, fun h => congrArg Nat.succ (hlength fun hm => h (List.mem_cons_of_mem _ hm))⟩
    · rw [lowerFrom_cons hsigma, hsmall, ← List.append_assoc]
      refine ⟨_, rfl, fun h => ?_⟩
      rw [List.mem_cons, not_or] at h
      rw [List.length_append, length_smallChar (Ne.symm h.1), hlength h.2, List.length_cons, Nat.add_comm]

/-- A pattern without a capital sigma that occurs in a text occurs in it in small letters, too. -/
theorem lower_isInfix {pattern cs : List Char} (hsigma : 'Σ' ∉ pattern) (h : pattern <:+: cs) :
    lowerFrom [] pattern <:+: lowerFrom [] cs := by
  obtain ⟨before, after, rfl⟩ := h
  obtain ⟨small, hsmall, -⟩ := lowerFrom_append [] before (pattern ++ after)
  rw [List.append_assoc, hsmall, lowerFrom_append_of_notMem hsigma, lowerFrom_of_notMem hsigma, ← List.append_assoc]
  exact ⟨small, _, rfl⟩

/-- What stands from a place on in small letters, if the characters before keep their places and those from there on do
not depend on them. -/
theorem drop_lower {cs : List Char} {i : Nat} (hle : i ≤ (lowerFrom [] cs).length) (hdot : 'İ' ∉ cs.take i)
    (hsigma : 'Σ' ∉ cs.drop i) : i ≤ cs.length ∧ (lowerFrom [] cs).drop i = lowerFrom [] (cs.drop i) := by
  obtain ⟨small, hsmall, hlength⟩ := lowerFrom_append [] (cs.take i) (cs.drop i)
  have hlength := hlength hdot
  rw [List.take_append_drop] at hsmall
  have hi : i ≤ cs.length := by
    by_contra hlong
    rw [hsmall, List.drop_eq_nil_of_le (by omega), lowerFrom, List.append_nil, hlength, List.length_take] at hle
    omega
  have hexact : small.length = i := by rw [hlength, List.length_take, Nat.min_eq_left hi]
  refine ⟨hi, ?_⟩
  rw [hsmall, ← hexact, List.drop_left, lowerFrom_of_notMem (hexact ▸ hsigma), lowerFrom_of_notMem (hexact ▸ hsigma)]

end Case
end ResourceTemplate

namespace ResourceTemplate.Catalog

variable (f : String) {s t : String} {i : Nat}

def place? (fromEnd : Bool) (pattern text : List Char) : Option Nat :=
  if fromEnd then Text.lastIndexOf? pattern text else Text.indexOf? pattern text

theorem isPrefix_of_place? {fromEnd : Bool} {pattern text : List Char} (h : place? fromEnd pattern text = some i) :
    i ≤ text.length ∧ pattern <+: text.drop i := by
  cases fromEnd with
  | true => exact Text.isPrefix_of_lastIndexOf? h
  | false => exact Text.isPrefix_of_indexOf? h

theorem place?_isSome (fromEnd : Bool) {pattern text : List Char} (h : pattern <:+: text) :
    (place? fromEnd pattern text).isSome := by
  cases fromEnd with
  | true => exact Text.lastIndexOf?_isSome h
  | false => exact Text.indexOf?_isSome h

theorem Collections.position_strings (fromEnd : Bool) (s t : String) :
    position fromEnd ⟨f, [.str s, .str t]⟩ = .ok (.int
      (match place? fromEnd (Case.lowerFrom [] t.toList) (Case.lowerFrom [] s.toList) with
        | some i => (i : Int)
        | none => -1)) := by
  have hcount : (⟨f, [.str s, .str t]⟩ : Args).exactly 2 = .ok () := rfl
  have htext : (⟨f, [.str s, .str t]⟩ : Args).value 0 = .ok (.str s) := rfl
  have hpattern : (⟨f, [.str s, .str t]⟩ : Args).string 1 = .ok t := rfl
  simp only [position, hcount, htext, hpattern, bind, Except.bind, pure, Except.pure, Case.lower, String.toList_ofList]
  unfold place?
  generalize (if fromEnd then Text.lastIndexOf? _ _ else Text.indexOf? _ _) = found
  cases found <;> rfl

/-- The place that is told is one at which the pattern stands in small letters. -/
theorem Collections.place?_of_position {fromEnd : Bool}
    (h : position fromEnd ⟨f, [.str s, .str t]⟩ = .ok (.int (i : Int))) :
    place? fromEnd (Case.lowerFrom [] t.toList) (Case.lowerFrom [] s.toList) = some i := by
  rw [position_strings] at h
  cases hp : place? fromEnd (Case.lowerFrom [] t.toList) (Case.lowerFrom [] s.toList) with
  | none =>
    rw [hp] at h
    simp only [Except.ok.injEq, Json.int, Json.num.injEq, Number.int.injEq] at h
    omega
  | some j =>
    rw [hp] at h
    simp only [Except.ok.injEq, Json.int, Json.num.injEq, Number.int.injEq] at h
    exact congrArg some (by omega)

theorem Collections.contains_strings (s t : String) :
    contains ⟨f, [.str s, .str t]⟩ = .ok (.bool (Text.contains t.toList s.toList)) := rfl

theorem Collections.length_string (s : String) : length ⟨f, [.str s]⟩ = .ok (.int (s.toList.length : Int)) := rfl

theorem Texts.startsWith_strings (s t : String) :
    compareEnd List.isPrefixOf ⟨f, [.str s, .str t]⟩ =
      .ok (.bool ((Case.lowerFrom [] t.toList).isPrefixOf (Case.lowerFrom [] s.toList))) := by
  have hcount : (⟨f, [.str s, .str t]⟩ : Args).exactly 2 = .ok () := rfl
  have htext : (⟨f, [.str s, .str t]⟩ : Args).string 0 = .ok s := rfl
  have hstart : (⟨f, [.str s, .str t]⟩ : Args).string 1 = .ok t := rfl
  simp only [compareEnd, hcount, htext, hstart, bind, Except.bind, pure, Except.pure, Case.lower,
    String.toList_ofList]

theorem Texts.substring_from (hlength : s.toList.length ≤ Integer.maxInt64) (hi : i ≤ s.toList.length) :
    substring ⟨f, [.str s, .int i]⟩ = .ok (.str (String.ofList (s.toList.drop i))) := by
  have hcount : (⟨f, [.str s, .int i]⟩ : Args).expect 2 (some 3) = .ok () := rfl
  have htext : (⟨f, [.str s, .int i]⟩ : Args).string 0 = .ok s := rfl
  have hfits : Integer.Fits (i : Int) := ⟨by omega, by omega⟩
  have hplace : (⟨f, [.str s, .int i]⟩ : Args).int 1 = .ok (i : Int) := Args.int_of_fits rfl hfits
  have hrest : Integer.wrap64 ((s.toList.length : Int) - i) = (s.toList.length : Int) - i :=
    Integer.wrap64_of_fits ⟨by omega, by omega⟩
  have hstop : Number.inRange? ((i : Int) + ((s.toList.length : Int) - i)) = some (s.toList.length : Int) := by
    have hsum : (i : Int) + ((s.toList.length : Int) - i) = s.toList.length := by omega
    rw [hsum]
    exact Number.inRange?_of_fits ⟨by omega, by omega⟩
  have hinside : (decide ((i : Int) < 0) || decide ((s.toList.length : Int) - i < 0) ||
      decide ((s.toList.length : Int) < s.toList.length)) = false := by
    simp
    omega
  have htake : (s.toList.drop i).take ((s.toList.length : Int) - i).toNat = s.toList.drop i :=
    List.take_of_length_le (by rw [List.length_drop]; omega)
  simp only [substring, hcount, htext, hplace, bind, Except.bind, pure, Except.pure, List.length_cons, List.length_nil,
    Nat.reduceAdd, Nat.reduceLT, if_true, hrest, hstop, hinside, Bool.false_eq_true, if_false, Int.toNat_natCast, htake]

/-- Search agrees with the string itself. A pattern without a capital sigma that a string contains is found from both
ends. Where it is found there is a place in the string at which it stands without regard to case, if no capital I with a
dot, whose small form is longer, stands before, and no capital sigma, which is read by what stands before it, from there
on. The string has as many characters as an integer of 64 bits can count. -/
theorem search_consistent (hlength : s.toList.length ≤ Integer.maxInt64) :
    (Collections.contains ⟨f, [.str s, .str t]⟩ = .ok (.bool true) → 'Σ' ∉ t.toList → ∀ fromEnd, ∃ i : Nat,
      Collections.position fromEnd ⟨f, [.str s, .str t]⟩ = .ok (.int i)) ∧
    ∀ fromEnd (i : Nat), Collections.position fromEnd ⟨f, [.str s, .str t]⟩ = .ok (.int i) →
      'İ' ∉ s.toList.take i → 'Σ' ∉ s.toList.drop i →
        (∃ n : Nat, Collections.length ⟨f, [.str s]⟩ = .ok (.int n) ∧ i ≤ n) ∧
        ∃ rest, Texts.substring ⟨f, [.str s, .int i]⟩ = .ok (.str rest) ∧
          Texts.compareEnd List.isPrefixOf ⟨f, [.str rest, .str t]⟩ = .ok (.bool true) := by
  -- small letters are those of the string's parts: the pattern occurs in them, and what is dropped has its own
  refine ⟨fun hcontains hsigma fromEnd => ?_, fun fromEnd i hfound hdot hsigma => ?_⟩
  · rw [Collections.contains_strings, Except.ok.injEq, Json.bool.injEq] at hcontains
    have hinfix := Case.lower_isInfix hsigma (Text.isInfix_of_contains hcontains)
    obtain ⟨i, hi⟩ := Option.isSome_iff_exists.mp (place?_isSome fromEnd hinfix)
    exact ⟨i, by rw [Collections.position_strings, hi]⟩
  · obtain ⟨hle, hprefix⟩ := isPrefix_of_place? (Collections.place?_of_position f hfound)
    obtain ⟨hi, hdrop⟩ := Case.drop_lower hle hdot hsigma
    refine ⟨⟨_, Collections.length_string f s, hi⟩, _, Texts.substring_from f hlength hi, ?_⟩
    rw [Texts.startsWith_strings, String.toList_ofList, ← hdrop, List.isPrefixOf_iff_prefix.mpr hprefix]

/-- A text with both letters, away from where they matter. -/
theorem search_consistent_between :
    "ΣaBİ".toList.length ≤ Integer.maxInt64 ∧
      Collections.contains ⟨"contains", [.str "ΣaBİ", .str "aB"]⟩ = .ok (.bool true) ∧ 'Σ' ∉ "aB".toList ∧
      (∃ i : Nat, Collections.position true ⟨"contains", [.str "ΣaBİ", .str "aB"]⟩ = .ok (.int i)) ∧
      Collections.position false ⟨"contains", [.str "ΣaBİ", .str "aB"]⟩ = .ok (.int (1 : Nat)) ∧
      'İ' ∉ "ΣaBİ".toList.take 1 ∧ 'Σ' ∉ "ΣaBİ".toList.drop 1 ∧
      ∃ rest, Texts.substring ⟨"contains", [.str "ΣaBİ", .int (1 : Nat)]⟩ = .ok (.str rest) ∧
        Texts.compareEnd List.isPrefixOf ⟨"contains", [.str rest, .str "aB"]⟩ = .ok (.bool true) := by
  have hlength : "ΣaBİ".toList.length ≤ Integer.maxInt64 := by decide
  have hcontains : Collections.contains ⟨"contains", [.str "ΣaBİ", .str "aB"]⟩ = .ok (.bool true) := rfl
  have hpattern : 'Σ' ∉ "aB".toList := by decide
  have hfound : Collections.position false ⟨"contains", [.str "ΣaBİ", .str "aB"]⟩ = .ok (.int (1 : Nat)) := rfl
  have hdot : 'İ' ∉ "ΣaBİ".toList.take 1 := by decide
  have hsigma : 'Σ' ∉ "ΣaBİ".toList.drop 1 := by decide
  obtain ⟨hsearch, hplace⟩ := search_consistent "contains" (t := "aB") hlength
  exact ⟨hlength, hcontains, hpattern, hsearch hcontains hpattern true, hfound, hdot, hsigma,
    (hplace false 1 hfound hdot hsigma).2⟩

/-- A pattern that a string contains is not found, and one is found behind the end of the string or where it does not
stand: a sigma at the end of the pattern is not read as one inside the string, and a capital I with a dot moves the
places after it. -/
theorem search_inconsistent :
    (Collections.contains ⟨"contains", [.str "ΑΣΑ", .str "ΑΣ"]⟩ = .ok (.bool true) ∧
      Collections.position false ⟨"indexOf", [.str "ΑΣΑ", .str "ΑΣ"]⟩ = .ok (.int (-1))) ∧
    (Collections.position false ⟨"indexOf", [.str "İİa", .str "a"]⟩ = .ok (.int 4) ∧
      Collections.length ⟨"length", [.str "İİa"]⟩ = .ok (.int 3)) ∧
    (Collections.position true ⟨"lastIndexOf", [.str "İab", .str "a"]⟩ = .ok (.int 2) ∧
      Texts.substring ⟨"substring", [.str "İab", .int 2]⟩ = .ok (.str "b") ∧
      Texts.compareEnd List.isPrefixOf ⟨"startsWith", [.str "b", .str "a"]⟩ = .ok (.bool false)) ∧
    Collections.position false ⟨"indexOf", [.str "ΑΣ", .str "ς"]⟩ = .ok (.int 1) ∧
      Texts.substring ⟨"substring", [.str "ΑΣ", .int 1]⟩ = .ok (.str "Σ") ∧
      Texts.compareEnd List.isPrefixOf ⟨"startsWith", [.str "Σ", .str "ς"]⟩ = .ok (.bool false) := by
  have hmiss : place? false (Case.lowerFrom [] "ΑΣ".toList) (Case.lowerFrom [] "ΑΣΑ".toList) = none := by
    decide +kernel
  have hbehind : place? false (Case.lowerFrom [] "a".toList) (Case.lowerFrom [] "İİa".toList) = some 4 := by
    decide +kernel
  have hmoved : place? true (Case.lowerFrom [] "a".toList) (Case.lowerFrom [] "İab".toList) = some 2 := by
    decide +kernel
  have hlast : place? false (Case.lowerFrom [] "ς".toList) (Case.lowerFrom [] "ΑΣ".toList) = some 1 := by
    decide +kernel
  have halone : (Case.lowerFrom [] "ς".toList).isPrefixOf (Case.lowerFrom [] "Σ".toList) = false := by
    decide +kernel
  rw [Collections.position_strings, Collections.position_strings, Collections.position_strings,
    Collections.position_strings, Texts.startsWith_strings, Texts.startsWith_strings, hmiss, hbehind, hmoved, hlast,
    halone]
  exact ⟨⟨rfl, rfl⟩, ⟨rfl, rfl⟩, ⟨rfl, rfl, rfl⟩, rfl, rfl, rfl⟩

end ResourceTemplate.Catalog
