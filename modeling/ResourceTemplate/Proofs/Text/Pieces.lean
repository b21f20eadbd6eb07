import Mathlib.Data.List.Basic
import Mathlib.Data.List.TakeWhile
import ResourceTemplate.Symbols
import ResourceTemplate.Text.Name
import ResourceTemplate.Text.Search

namespace ResourceTemplate.Text

theorem splitFrom_single (sep : Char) (begun cs : List Char) :
    splitFrom [sep] 0 begun cs = List.splitOnPPrepend (· == sep) cs begun := by
  induction cs generalizing begun with
  | nil => rfl
  | cons c cs ih =>
    rw [splitFrom, List.splitOnPPrepend]
    by_cases hc : c = sep
    · rw [if_pos (by simp [hc, List.isPrefixOf]), if_pos (by simp [hc])]
      exact congrArg (begun.reverse :: ·) (ih [])
    · rw [if_neg (by simp [Ne.symm hc, List.isPrefixOf]), if_neg (by simp [hc]), ih]

theorem splitOn_single (sep : Char) (cs : List Char) : splitOn [sep] cs = List.splitOn sep cs :=
  splitFrom_single sep [] cs

theorem nil_intercalate {α : Type} (pieces : List (List α)) : [].intercalate pieces = pieces.flatten := by
  induction pieces with
  | nil => rfl
  | cons p pieces ih =>
    cases pieces with
    | nil => simp
    | cons q pieces => rw [List.intercalate_cons_cons, List.append_nil, ih, ← List.flatten_cons]

theorem flatten_splitFrom (sep : Char) (begun cs : List Char) :
    (splitFrom [sep] 0 begun cs).flatten = begun.reverse ++ cs.filter (· != sep) := by
  induction cs generalizing begun with
  | nil => simp [splitFrom]
  | cons c cs ih =>
    rw [splitFrom]
    by_cases hc : sep = c
    · rw [if_pos (by simp [hc, List.isPrefixOf]), List.flatten_cons, List.length_singleton, ih]
      simp [hc]
    · rw [if_neg (by simp [hc, List.isPrefixOf]), ih]
      simp [Ne.symm hc]

/-- A character that is replaced by nothing is left out. -/
theorem replace_single_nil (sep : Char) (cs : List Char) : replace [sep] [] cs = cs.filter (· != sep) := by
  rw [replace, nil_intercalate, splitOn, flatten_splitFrom, List.reverse_nil, List.nil_append]

def joined (sep : Char) (pieces : List String) : List Char := [sep].intercalate (pieces.map String.toList)

@[simp] theorem joined_singleton (sep : Char) (piece : String) : joined sep [piece] = piece.toList := by
  simp [joined]

theorem joined_cons (sep : Char) (piece : String) (pieces : List String) :
    joined sep (piece :: pieces) = piece.toList ++ pieces.flatMap fun p => sep :: p.toList := by
  induction pieces generalizing piece with
  | nil => simp
  | cons next pieces ih =>
    have hstep : joined sep (piece :: next :: pieces) = piece.toList ++ sep :: joined sep (next :: pieces) := by
      simp [joined, List.intercalate_cons_cons]
    rw [hstep, ih, List.flatMap_cons, List.cons_append]

theorem cons_joined (sep : Char) {pieces : List String} (hne : pieces ≠ []) :
    sep :: joined sep pieces = pieces.flatMap fun p => sep :: p.toList := by
  cases pieces with
  | nil => exact absurd rfl hne
  | cons p pieces => rw [joined_cons, List.flatMap_cons, List.cons_append]

theorem joined_splitChar (sep : Char) (s : String) : joined sep (splitChar sep s) = s.toList := by
  rw [joined, splitChar, splitOn_single, List.map_map]
  simp [Function.comp_def, List.intercalate_splitOn]

theorem splitChar_joined {sep : Char} {pieces : List String} (h : ∀ p ∈ pieces, sep ∉ p.toList) (hne : pieces ≠ []) :
    splitChar sep (String.ofList (joined sep pieces)) = pieces := by
  rw [splitChar, splitOn_single, String.toList_ofList, joined, List.splitOn_intercalate sep (by simpa using h)
    (by simpa using hne), List.map_map]
  simp [Function.comp_def]

theorem notMem_splitFrom {sep : Char} {cs begun piece : List Char} (hb : sep ∉ begun)
    (h : piece ∈ splitFrom [sep] 0 begun cs) : sep ∉ piece := by
  induction cs generalizing begun with
  | nil =>
    rw [splitFrom, List.mem_singleton] at h
    simpa [h] using hb
  | cons c cs ih =>
    rw [splitFrom] at h
    by_cases hc : sep = c
    · rw [if_pos (by simp [hc, List.isPrefixOf]), List.mem_cons] at h
      rcases h with rfl | h
      · simpa using hb
      · exact ih List.not_mem_nil h
    · rw [if_neg (by simp [hc, List.isPrefixOf])] at h
      exact ih (by simp [hc, hb]) h

theorem notMem_of_mem_splitChar {sep : Char} {s piece : String} (h : piece ∈ splitChar sep s) :
    sep ∉ piece.toList := by
  obtain ⟨cs, hcs, rfl⟩ := List.mem_map.mp h
  rw [String.toList_ofList]
  exact notMem_splitFrom List.not_mem_nil hcs

theorem splitChar_ne_nil (sep : Char) (s : String) : splitChar sep s ≠ [] := by
  rw [splitChar, splitOn_single, Ne, List.map_eq_nil_iff]
  exact List.splitOn_ne_nil sep _

/-- Texts are cut between the separators that are put between them, and within each of them. -/
theorem splitChar_joined_flatMap (sep : Char) {texts : List String} (hne : texts ≠ []) :
    splitChar sep (String.ofList (joined sep texts)) = texts.flatMap (splitChar sep) := by
  have hpieces : texts.flatMap (splitChar sep) ≠ [] := by
    obtain ⟨t, rest, rfl⟩ := List.exists_cons_of_ne_nil hne
    simp [splitChar_ne_nil]
  have hsame : sep :: joined sep (texts.flatMap (splitChar sep)) = sep :: joined sep texts := by
    rw [cons_joined sep hpieces, cons_joined sep hne, List.flatMap_assoc]
    refine List.flatMap_congr fun t _ => ?_
    rw [← cons_joined sep (splitChar_ne_nil sep t), joined_splitChar]
  have hnot : ∀ p ∈ texts.flatMap (splitChar sep), sep ∉ p.toList := by
    intro p hp
    obtain ⟨t, -, hp⟩ := List.mem_flatMap.mp hp
    exact notMem_of_mem_splitChar hp
  rw [← (List.cons.inj hsame).2]
  exact splitChar_joined hnot hpieces

theorem joined_concat (sep : Char) {pieces : List String} (hne : pieces ≠ []) (piece : String) :
    joined sep (pieces ++ [piece]) = joined sep pieces ++ sep :: piece.toList := by
  cases pieces with
  | nil => exact absurd rfl hne
  | cons p pieces => simp [joined_cons]

theorem splitChar_of_notMem {sep : Char} {s : String} (h : sep ∉ s.toList) : splitChar sep s = [s] := by
  have hcut : splitChar sep (String.ofList (joined sep [s])) = [s] :=
    splitChar_joined (by simpa using h) (List.cons_ne_nil s [])
  rwa [joined_singleton, String.ofList_toList] at hcut

/-- Texts of which only the first has separators are cut into the pieces of that one and the others. -/
theorem length_splitChar_joined {sep : Char} (text : String) {texts : List String} (h : ∀ t ∈ texts, sep ∉ t.toList) :
    (splitChar sep (String.ofList (joined sep (text :: texts)))).length =
      (splitChar sep text).length + texts.length := by
  have hwhole : texts.flatMap (splitChar sep) = texts := by
    conv_rhs => rw [← List.flatMap_singleton' texts]
    exact List.flatMap_congr fun t ht => splitChar_of_notMem (h t ht)
  rw [splitChar_joined_flatMap sep (List.cons_ne_nil text texts), List.flatMap_cons, List.length_append, hwhole]

theorem count_joined {sep : Char} {piece : String} {pieces : List String}
    (h : ∀ p ∈ piece :: pieces, sep ∉ p.toList) : (joined sep (piece :: pieces)).count sep = pieces.length := by
  have hsum (ps : List String) (hps : ∀ p ∈ ps, sep ∉ p.toList) :
      (ps.flatMap fun p => sep :: p.toList).count sep = ps.length := by
    induction ps with
    | nil => rfl
    | cons p ps ih =>
      rw [List.forall_mem_cons] at hps
      rw [List.flatMap_cons, List.count_append, List.count_cons_self, List.count_eq_zero.mpr hps.1, ih hps.2,
        List.length_cons, Nat.zero_add, Nat.add_comm]
  rw [List.forall_mem_cons] at h
  rw [joined_cons, List.count_append, List.count_eq_zero.mpr h.1, Nat.zero_add, hsum pieces h.2]

/-- A character that stands before the small letters and is no capital has no other spelling. -/
theorem toLower_eq_iff {c d : Char} (hc : c.toNat < 97) (hl : c.toLower = c) : d.toLower = c ↔ d = c := by
  refine ⟨fun hd => ?_, fun hd => hd ▸ hl⟩
  unfold Char.toLower at hd
  split at hd
  · rename_i hupper
    subst hd
    exfalso
    simp [UInt32.le_iff_toNat_le] at hupper hc
    omega
  · exact hd

theorem count_map_toLower {c : Char} (hc : c.toNat < 97) (hl : c.toLower = c) (cs : List Char) :
    (cs.map Char.toLower).count c = cs.count c := by
  rw [List.count_eq_countP, List.countP_map, List.count_eq_countP]
  refine List.countP_congr fun d _ => ?_
  simpa using toLower_eq_iff hc hl

theorem map_toLower_joined {sep : Char} (hl : sep.toLower = sep) (pieces : List String) :
    (joined sep pieces).map Char.toLower = joined sep (pieces.map Name.fold) := by
  cases pieces with
  | nil => rfl
  | cons p pieces =>
    rw [List.map_cons, joined_cons, joined_cons]
    simp [Name.fold, List.map_flatMap, List.flatMap_map, hl]

theorem notMem_fold {c : Char} (hc : c.toNat < 97) (hl : c.toLower = c) {s : String} (h : c ∉ s.toList) :
    c ∉ (Name.fold s).toList := by
  rw [Name.fold, String.toList_ofList, ← List.count_eq_zero, count_map_toLower hc hl, List.count_eq_zero]
  exact h

/-- Joined pieces are spelled alike up to case exactly when each of them is. -/
theorem map_toLower_joined_inj (sep : Char) (hc : sep.toNat < 97) (hl : sep.toLower = sep) {ps qs : List String}
    (hp : ∀ p ∈ ps, sep ∉ p.toList) (hq : ∀ p ∈ qs, sep ∉ p.toList) (hps : ps ≠ []) (hqs : qs ≠ []) :
    (joined sep ps).map Char.toLower = (joined sep qs).map Char.toLower ↔ ps.map Name.fold = qs.map Name.fold := by
  have hfold {ps : List String} (hp : ∀ p ∈ ps, sep ∉ p.toList) : ∀ p ∈ ps.map Name.fold, sep ∉ p.toList := by
    simpa using fun p hm => notMem_fold hc hl (hp p hm)
  rw [map_toLower_joined hl, map_toLower_joined hl]
  refine ⟨fun h => ?_, congrArg _⟩
  rw [← splitChar_joined (hfold hp) (by simpa using hps), h, splitChar_joined (hfold hq) (by simpa using hqs)]

/-- A text is spelled like another up to case exactly when their pieces are. -/
theorem same_iff_splitChar (sep : Char) (hc : sep.toNat < 97) (hl : sep.toLower = sep) (a b : String) :
    Name.same a b = true ↔ (splitChar sep a).map Name.fold = (splitChar sep b).map Name.fold := by
  rw [← map_toLower_joined_inj sep hc hl (fun _ => notMem_of_mem_splitChar) (fun _ => notMem_of_mem_splitChar)
    (splitChar_ne_nil sep a) (splitChar_ne_nil sep b), joined_splitChar, joined_splitChar, Name.same_iff, Name.fold,
    Name.fold, String.ofList_inj]

end ResourceTemplate.Text

namespace ResourceTemplate

namespace Integer

theorem isDigit_of_mem_natText {n : Nat} {c : Char} (h : c ∈ natText n) : isDigit c = true := by
  have hd := Nat.isDigit_of_mem_toDigits (by decide) (by decide) h
  simpa [isDigit, Char.isDigit, Char.le_def] using hd

theorem natText_ne_nil (n : Nat) : natText n ≠ [] := Nat.toDigits_ne_nil

theorem natText_injective {m n : Nat} (h : natText m = natText n) : m = n := by
  have hread (k : Nat) : Nat.ofDigitChars 10 (natText k) 0 = k :=
    Nat.ofDigitChars_toDigits (by decide) (by decide)
  rw [← hread m, h, hread n]

theorem le_ofDigitChars (cs : List Char) (acc : Nat) : acc ≤ Nat.ofDigitChars 10 cs acc := by
  induction cs generalizing acc with
  | nil => exact Nat.le_refl acc
  | cons c cs ih =>
    rw [Nat.ofDigitChars_cons]
    exact Nat.le_trans (by omega) (ih _)

theorem digits_eq {limit acc : Nat} {cs : List Char} (hd : ∀ c ∈ cs, isDigit c = true)
    (hl : Nat.ofDigitChars 10 cs acc ≤ limit) :
    digits limit acc cs = .ok (Nat.ofDigitChars 10 cs acc) := by
  induction cs generalizing acc with
  | nil => rfl
  | cons c cs ih =>
    obtain ⟨hc, hcs⟩ := List.forall_mem_cons.mp hd
    rw [Nat.ofDigitChars_cons] at hl ⊢
    have hnext : acc * 10 + digitValue c = 10 * acc + (c.toNat - '0'.toNat) := by
      rw [digitValue]
      omega
    have hle := Nat.le_trans (le_ofDigitChars cs _) hl
    unfold digits
    rw [hc]
    simp only [Bool.not_true, Bool.false_eq_true, if_false, hnext, if_neg (Nat.not_lt.mpr hle)]
    exact ih hcs hl

theorem natural_eq {limit : Nat} {cs : List Char} (hne : cs ≠ []) (hd : ∀ c ∈ cs, isDigit c = true)
    (hl : Nat.ofDigitChars 10 cs 0 ≤ limit) : natural limit cs = .ok (Nat.ofDigitChars 10 cs 0) := by
  rw [natural, if_neg (by simp [hne]), digits_eq hd hl]

theorem natural_natText {limit n : Nat} (h : n ≤ limit) : natural limit (natText n) = .ok n := by
  have ho : Nat.ofDigitChars 10 (natText n) 0 = n := Nat.ofDigitChars_toDigits (by decide) (by decide)
  rw [natural_eq (natText_ne_nil n) (fun c => isDigit_of_mem_natText) (ho.symm ▸ h), ho]

theorem nat64_natText {n : Nat} (h : n ≤ maxNat64) : nat64 (natText n) = .ok n := by
  unfold nat64
  split
  · rename_i cs hcs
    have hplus := isDigit_of_mem_natText (hcs ▸ List.mem_cons_self : '+' ∈ natText n)
    cases hplus
  · exact natural_natText h

end Integer

namespace Blank

theorem not_isBlank_of_isDigit {c : Char} (h : Integer.isDigit c = true) : isBlank c = false := by
  obtain ⟨h0, h9⟩ : 48 ≤ c.toNat ∧ c.toNat ≤ 57 := by
    simpa [Integer.isDigit, Char.le_def, UInt32.le_iff_toNat_le] using h
  simp only [isBlank, Bool.or_eq_false_iff, Bool.and_eq_false_iff, decide_eq_false_iff_not,
    beq_eq_false_iff_ne]
  omega

theorem trim_eq_self {cs : List Char} (h : ∀ c ∈ cs, isBlank c = false) :
    trimRight (trimLeft cs) = cs := by
  have hself (l : List Char) (hl : ∀ c ∈ l, isBlank c = false) : l.dropWhile isBlank = l :=
    List.dropWhile_eq_self_iff.mpr fun hlen => by simp [hl _ (List.getElem_mem hlen)]
  rw [trimLeft, hself cs h, trimRight, hself cs.reverse (by simpa using h), List.reverse_reverse]

end Blank

theorem Text.indexOf?_single {c : Char} {before after : List Char} (h : c ∉ before) :
    indexOf? [c] (before ++ c :: after) = some before.length := by
  induction before with
  | nil => simp [indexOf?, List.isPrefixOf]
  | cons b before ih =>
    rw [List.mem_cons, not_or] at h
    rw [List.cons_append, indexOf?, ih h.2]
    simp [List.isPrefixOf, h.1]

theorem Text.splitOnce?_single {c : Char} {before after : List Char} (h : c ∉ before) :
    splitOnce? [c] (before ++ c :: after) = some (before, after) := by
  rw [splitOnce?, indexOf?_single h]
  simp

def indexed (name : String) (i : Nat) : String :=
  name ++ "[" ++ String.ofList (Integer.natText i) ++ "]"

theorem splitIndexed?_indexed {name : String} {i : Nat} (hn : '[' ∉ name.toList)
    (hi : i ≤ Integer.maxNat64) : splitIndexed? (indexed name i) = some (name, i) := by
  have ht : (indexed name i).toList = name.toList ++ '[' :: (Integer.natText i ++ [']']) := by
    simp [indexed]
  have hb : ∀ c ∈ Integer.natText i, Blank.isBlank c = false := fun c hc =>
    Blank.not_isBlank_of_isDigit (Integer.isDigit_of_mem_natText hc)
  unfold splitIndexed?
  rw [ht, Text.splitOnce?_single hn]
  simp [Blank.trim_eq_self hb, Integer.nat64_natText hi]

end ResourceTemplate
