import ResourceTemplate.Catalog.Format
import ResourceTemplate.Catalog.Texts
import ResourceTemplate.Proofs.Catalog.Arithmetic
import ResourceTemplate.Proofs.Outcome
import ResourceTemplate.Proofs.Text.Pieces

namespace ResourceTemplate.Catalog.Format

def doubled (cs : List Char) : List Char := cs.flatMap fun c => if c = '\x7b' ∨ c = '\x7d' then [c, c] else [c]

def plainItem (i : Nat) : Item := ⟨Integer.natText i, none, none⟩

def placeholder (i : Nat) : List Char := '\x7b' :: (Integer.natText i ++ ['\x7d'])

/-- Texts with their braces doubled, each behind the item of one more value; `i` values were used before. -/
def itemised (i : Nat) : List String → List Char
  | [] => []
  | text :: texts => placeholder i ++ (doubled text.toList ++ itemised (i + 1) texts)

/-- The template of a text and of others with a value before each of them. -/
def interleaved (first : String) (others : List String) : String :=
  String.ofList (doubled first.toList ++ itemised 0 others)

example : interleaved "a\x7b" ["\x7d", ""] = "a\x7b\x7b\x7b0\x7d\x7d\x7d\x7b1\x7d" := rfl

/-! ### Reading -/

theorem pieces_skip (skipped rest : List Char) : pieces skipped.length (skipped ++ rest) = pieces 0 rest := by
  induction skipped with
  | nil => rfl
  | cons c skipped ih => exact ih

theorem pieces_cons {c : Char} (hopen : c ≠ '\x7b') (hclose : c ≠ '\x7d') (rest : List Char) :
    pieces 0 (c :: rest) = .text c :: pieces 0 rest := by
  rw [pieces, if_neg (by simp [hclose])]
  exact hopen

/-- A text with its braces doubled is read as itself, whatever follows. -/
theorem pieces_doubled (cs rest : List Char) :
    pieces 0 (doubled cs ++ rest) = cs.map .text ++ pieces 0 rest := by
  induction cs with
  | nil => rfl
  | cons c cs ih =>
    rw [doubled, List.flatMap_cons, List.append_assoc, List.map_cons, List.cons_append, ← ih]
    by_cases hopen : c = '\x7b'
    · subst hopen
      rfl
    by_cases hclose : c = '\x7d'
    · subst hclose
      rfl
    rw [if_neg (by simp [hopen, hclose])]
    exact pieces_cons hopen hclose _

theorem isDecimal_of_isDigit {c : Char} (h : Integer.isDigit c = true) : Digit.isDecimal c = true := by
  obtain ⟨h0, h9⟩ : 48 ≤ c.toNat ∧ c.toNat ≤ 57 := by
    simpa [Integer.isDigit, Char.le_def, UInt32.le_iff_toNat_le] using h
  have hzero : (0x30 : Nat) ∈ Digit.zeros := by decide
  refine List.any_eq_true.mpr ⟨0x30, hzero, ?_⟩
  simp only [Bool.and_eq_true, decide_eq_true_eq]
  omega

theorem item?_natText (i : Nat) (rest : List Char) :
    item? (Integer.natText i ++ '\x7d' :: rest) = some (plainItem i, (Integer.natText i).length + 2) := by
  have hdecimal : ∀ c ∈ Integer.natText i, Digit.isDecimal c = true := fun c hc =>
    isDecimal_of_isDigit (Integer.isDigit_of_mem_natText hc)
  have hbrace : Digit.isDecimal '\x7d' = false := by decide
  have htake : (Integer.natText i ++ '\x7d' :: rest).takeWhile Digit.isDecimal = Integer.natText i := by
    rw [List.takeWhile_append_of_pos hdecimal, List.takeWhile_cons, hbrace, if_neg Bool.false_ne_true, List.append_nil]
  have hdrop : (Integer.natText i ++ '\x7d' :: rest).dropWhile Digit.isDecimal = '\x7d' :: rest := by
    rw [List.dropWhile_append_of_pos hdecimal, List.dropWhile_cons, hbrace, if_neg Bool.false_ne_true]
  have hlength : (Integer.natText i ++ '\x7d' :: rest).length - rest.length + 1 = (Integer.natText i).length + 2 := by
    rw [List.length_append, List.length_cons]
    omega
  simp only [item?, htake, hdrop, List.isEmpty_iff, Integer.natText_ne_nil, if_neg, not_false_eq_true, plainItem]
  exact congrArg (fun n => some (plainItem i, n)) hlength

theorem pieces_placeholder (i : Nat) (rest : List Char) :
    pieces 0 (placeholder i ++ rest) = .item (plainItem i) :: pieces 0 rest := by
  have hshape : placeholder i ++ rest = '\x7b' :: (Integer.natText i ++ '\x7d' :: rest) := by
    simp [placeholder]
  have hhead : (Integer.natText i ++ '\x7d' :: rest).head? ≠ some '\x7b' := by
    cases hd : Integer.natText i with
    | nil => exact absurd hd (Integer.natText_ne_nil i)
    | cons d ds =>
      rintro ⟨⟩
      cases Integer.isDigit_of_mem_natText (hd ▸ List.mem_cons_self : '\x7b' ∈ Integer.natText i)
  have hskip : pieces ((Integer.natText i).length + 1) (Integer.natText i ++ '\x7d' :: rest) = pieces 0 rest := by
    have h := pieces_skip (Integer.natText i ++ ['\x7d']) rest
    rwa [List.length_append, List.append_assoc] at h
  rw [hshape, pieces, if_neg (by simpa using hhead), item?_natText]
  exact congrArg (.item (plainItem i) :: ·) hskip

/-! ### Writing -/

variable {values : List Json}

theorem renderAll_text (values : List Json) (cs : List Char) (ps : List Piece) :
    renderAll values (cs.map .text ++ ps) = (renderAll values ps).map (cs ++ ·) := by
  induction cs with
  | nil =>
    rw [List.map_nil, List.nil_append]
    cases renderAll values ps <;> rfl
  | cons c cs ih =>
    rw [List.map_cons, List.cons_append, renderAll, ih]
    cases renderAll values ps <;> rfl

theorem align_zero (text : List Char) : align text 0 = .ok text := by
  have hfits : checkPadded "format" "alignment" (0 : Int).natAbs = .ok () := rfl
  rw [align, hfits]
  simp [bind, Except.bind, pure, Except.pure]

theorem render_plainItem {i : Nat} {v : Json} (hi : i ≤ Integer.maxNat64) (hv : values[i]? = some v) :
    render values (plainItem i) = .ok v.display.toList := by
  have hvalue : value v none = .ok v.display.toList := rfl
  simp only [render, plainItem, Integer.natural_natText hi, bind, Except.bind, pure, Except.pure, hv, hvalue,
    align_zero]

def shown (parts : List (Json × String)) : List Char :=
  parts.flatMap fun part => part.1.display.toList ++ part.2.toList

/-- Each item of a template is given the value that stands for it. -/
theorem renderAll_itemised {i : Nat} {parts : List (Json × String)} (hi : i + parts.length ≤ Integer.maxNat64 + 1)
    (hv : ∀ j (hj : j < parts.length), values[i + j]? = some parts[j].1) :
    renderAll values (pieces 0 (itemised i (parts.map Prod.snd))) = .ok (shown parts) := by
  induction parts generalizing i with
  | nil => rfl
  | cons part parts ih =>
    rw [List.length_cons] at hi
    have hfirst : render values (plainItem i) = .ok part.1.display.toList :=
      render_plainItem (by omega) (hv 0 (Nat.zero_lt_succ _))
    have hrest : renderAll values (pieces 0 (itemised (i + 1) (parts.map Prod.snd))) = .ok (shown parts) := by
      refine ih (by omega) fun j hj => ?_
      have h := hv (j + 1) (Nat.succ_lt_succ hj)
      rwa [List.getElem_cons_succ, ← Nat.add_assoc, Nat.add_right_comm] at h
    rw [List.map_cons, itemised, pieces_placeholder, pieces_doubled, renderAll, hfirst, renderAll_text, hrest]
    simp [shown, bind, Except.bind, pure, Except.pure, Except.map]

theorem format_eq (f template : String) (values : List Json) {cs : List Char}
    (h : renderAll values (pieces 0 template.toList) = .ok cs) :
    format ⟨f, .str template :: values⟩ = .ok (.str (String.ofList cs)) := by
  have hcount : (⟨f, .str template :: values⟩ : Args).expect 1 none = .ok () := by
    simp [Args.expect, Args.expectCount]
  have htemplate : (⟨f, .str template :: values⟩ : Args).string 0 = .ok template := rfl
  simp only [format, hcount, htemplate, bind, Except.bind, List.tail_cons, h]
  rfl

/-- Doubled braces stand for themselves. A text with its braces doubled is formatted as the text, whatever else is
given; and texts with their braces doubled, with an item for one more value between each two of them, are formatted as
the texts with the texts of the values between them, whatever the texts begin and end with. The arguments are as many
as a word of 64 bits can count. -/
theorem format_doubled (f : String) :
    (∀ (text : String) (others : List Json),
      format ⟨f, .str (String.ofList (doubled text.toList)) :: others⟩ = .ok (.str text)) ∧
    ∀ (first : String) (parts : List (Json × String)) (others : List Json), parts.length ≤ Integer.maxNat64 + 1 →
      format ⟨f, .str (interleaved first (parts.map Prod.snd)) :: (parts.map Prod.fst ++ others)⟩ =
        .ok (.str (first ++ String.join (parts.map fun part => part.1.display ++ part.2))) := by
  constructor
  · intro text others
    have hread : pieces 0 (doubled text.toList) = text.toList.map .text ++ pieces 0 [] := by
      rw [← pieces_doubled, List.append_nil]
    have hwrite : renderAll others (pieces 0 (doubled text.toList)) = .ok text.toList := by
      rw [hread, renderAll_text]
      exact congrArg Except.ok (List.append_nil _)
    rw [format_eq f _ others (by rwa [String.toList_ofList]), String.ofList_toList]
  · intro first parts others hcount
    have hvalues : ∀ j (hj : j < parts.length),
        (parts.map Prod.fst ++ others)[0 + j]? = some parts[j].1 := by
      intro j hj
      rw [Nat.zero_add, List.getElem?_append_left (by simpa using hj), List.getElem?_map, List.getElem?_eq_getElem hj]
      rfl
    have hwrite : renderAll (parts.map Prod.fst ++ others)
        (pieces 0 (interleaved first (parts.map Prod.snd)).toList) = .ok (first.toList ++ shown parts) := by
      rw [interleaved, String.toList_ofList, pieces_doubled, renderAll_text,
        renderAll_itemised (by omega) hvalues]
      rfl
    have htexts : String.ofList (first.toList ++ shown parts) =
        first ++ String.join (parts.map fun part => part.1.display ++ part.2) := by
      rw [← String.toList_inj]
      simp [shown, String.toList_join, List.flatMap_map]
    rw [format_eq f _ _ hwrite, htexts]

/-- Braces at the joints: an item between an opening and a closing brace, next to another. -/
theorem format_doubled_at_joints :
    let parts : List (Json × String) := [(.int 7, "\x7d"), (.bool true, ""), (.str "\x7b0\x7d", "\x7b\x7d")]
    parts.length ≤ Integer.maxNat64 + 1 ∧
      format ⟨"format", .str (interleaved "a\x7b" (parts.map Prod.snd)) :: parts.map Prod.fst⟩ =
        .ok (.str "a\x7b7\x7dTrue\x7b0\x7d\x7b\x7d") := by
  intro parts
  have hcount : parts.length ≤ Integer.maxNat64 + 1 := by decide
  exact ⟨hcount, (format_doubled "format").2 "a\x7b" parts [] hcount⟩

end ResourceTemplate.Catalog.Format

namespace ResourceTemplate

open Catalog.Format (signed)

/-! ### Digits behind a sign -/

/-- Digits of the absolute value behind the sign are read as the integer. -/
theorem Integer.int64_signed {n : Int} (hn : Fits n) {ds : List Char} (hne : ds ≠ [])
    (hd : ∀ d ∈ ds, isDigit d = true) (hv : Nat.ofDigitChars 10 ds 0 = n.natAbs) : int64 (signed n ds) = .ok n := by
  obtain ⟨hleast, hgreatest⟩ := hn
  unfold signed
  split
  · have hread : natural (maxInt64 + 1) ds = .ok n.natAbs := by
      rw [natural_eq hne hd (by omega), hv]
    have hminus : -(n.natAbs : Int) = n := by omega
    rw [int64, hread]
    exact congrArg Except.ok hminus
  · have hread : natural maxInt64 ds = .ok n.natAbs := by
      rw [natural_eq hne hd (by omega), hv]
    have hplus : (n.natAbs : Int) = n := by omega
    unfold int64
    split
    · cases hd '-' List.mem_cons_self
    · cases hd '+' List.mem_cons_self
    · rw [hread]
      exact congrArg Except.ok hplus

theorem Integer.not_isBlank_signed {n : Int} {ds : List Char} (hd : ∀ d ∈ ds, isDigit d = true) :
    ∀ c ∈ signed n ds, Blank.isBlank c = false := by
  have hdigits : ∀ c ∈ ds, Blank.isBlank c = false := fun c hc => Blank.not_isBlank_of_isDigit (hd c hc)
  unfold signed
  split
  · exact List.forall_mem_cons.mpr ⟨rfl, hdigits⟩
  · exact hdigits

theorem Integer.ofDigitChars_zeros (k : Nat) (ds : List Char) :
    Nat.ofDigitChars 10 (List.replicate k '0' ++ ds) 0 = Nat.ofDigitChars 10 ds 0 := by
  induction k with
  | zero => rfl
  | succ k ih => exact ih

theorem Integer.ofDigitChars_natText (n : Nat) : Nat.ofDigitChars 10 (natText n) 0 = n :=
  Nat.ofDigitChars_toDigits (by decide) (by decide)

namespace Catalog

theorem Arithmetic.int_signed (f : String) {n : Int} (hn : Integer.Fits n) {ds : List Char} (hne : ds ≠ [])
    (hd : ∀ d ∈ ds, Integer.isDigit d = true) (hv : Nat.ofDigitChars 10 ds 0 = n.natAbs) :
    int ⟨f, [.str (String.ofList (signed n ds))]⟩ = .ok (.int n) := by
  have hcount : (⟨f, [.str (String.ofList (signed n ds))]⟩ : Args).exactly 1 = .ok () := rfl
  have hvalue : (⟨f, [.str (String.ofList (signed n ds))]⟩ : Args).value 0 =
      .ok (.str (String.ofList (signed n ds))) := rfl
  have htrim : (Blank.trim (String.ofList (signed n ds))).toList = signed n ds := by
    rw [Blank.trim, String.toList_ofList, String.toList_ofList, Blank.trim_eq_self (Integer.not_isBlank_signed hd)]
  simp only [int, hcount, hvalue, bind, Except.bind, htrim, Integer.int64_signed hn hne hd hv]
  rfl

theorem Texts.replace_comma (f s : String) :
    replace ⟨f, [.str s, .str ",", .str ""]⟩ = .ok (.str (String.ofList (s.toList.filter (· != ',')))) := by
  rw [← Text.replace_single_nil]
  rfl

namespace Format

/-! ### Zeros in front -/

theorem isDigit_of_mem_zeroPadded {k m : Nat} {c : Char} (h : c ∈ zeroPadded k (Integer.natText m)) :
    Integer.isDigit c = true := by
  rcases List.mem_append.mp h with h | h
  · rw [List.eq_of_mem_replicate h]
    rfl
  · exact Integer.isDigit_of_mem_natText h

theorem length_zeroPadded (k : Nat) (cs : List Char) : (zeroPadded k cs).length = max k cs.length := by
  rw [zeroPadded, List.length_append, List.length_replicate]
  omega

theorem zeroPadded_natText_ne_nil (k m : Nat) : zeroPadded k (Integer.natText m) ≠ [] :=
  List.append_ne_nil_of_right_ne_nil _ (Integer.natText_ne_nil m)

theorem ofDigitChars_zeroPadded (k m : Nat) : Nat.ofDigitChars 10 (zeroPadded k (Integer.natText m)) 0 = m := by
  rw [zeroPadded, Integer.ofDigitChars_zeros, Integer.ofDigitChars_natText]

/-! ### Groups of three digits -/

/-- The digits from place `i` of `n` on, with a comma before each that begins a group but the first digit. -/
def groupedFrom (n i : Nat) (ds : List Char) : List Char :=
  (ds.zipIdx i).flatMap fun (d, j) => if 0 < j && (n - j) % 3 == 0 then [',', d] else [d]

theorem groupedFrom_cons (n i : Nat) (d : Char) (ds : List Char) :
    groupedFrom n i (d :: ds) = (if 0 < i && (n - i) % 3 == 0 then [',', d] else [d]) ++ groupedFrom n (i + 1) ds := by
  rw [groupedFrom, List.zipIdx_cons, List.flatMap_cons]
  rfl

theorem filter_groupedFrom {n i : Nat} {ds : List Char} (hd : ',' ∉ ds) :
    (groupedFrom n i ds).filter (· != ',') = ds := by
  induction ds generalizing i with
  | nil => rfl
  | cons d ds ih =>
    rw [List.mem_cons, not_or] at hd
    rw [groupedFrom_cons, List.filter_append, ih hd.2]
    split <;> simp [Ne.symm hd.1]

/-- A text of digits and commas that is left with a positive multiple of three digits. -/
structure GroupsFollow (after : List Char) : Prop where
  only : ∀ c ∈ after, Integer.isDigit c = true ∨ c = ','
  some : 0 < after.countP Integer.isDigit
  threes : 3 ∣ after.countP Integer.isDigit

/-- Whether every comma of a text stands behind a digit and before a positive multiple of three digits. -/
def Grouped (text : List Char) : Prop :=
  ∀ before after, text = before ++ ',' :: after →
    (∃ d ∈ before.getLast?, Integer.isDigit d = true) ∧ GroupsFollow after

theorem mem_groupedFrom {n i : Nat} {ds : List Char} {c : Char} (hd : ∀ d ∈ ds, Integer.isDigit d = true)
    (h : c ∈ groupedFrom n i ds) : Integer.isDigit c = true ∨ c = ',' := by
  by_cases hc : c = ','
  · exact .inr hc
  · have hcomma : ',' ∉ ds := fun h => by cases hd ',' h
    have hkept : c ∈ (groupedFrom n i ds).filter (· != ',') := List.mem_filter.mpr ⟨h, bne_iff_ne.mpr hc⟩
    rw [filter_groupedFrom hcomma] at hkept
    exact .inl (hd c hkept)

theorem countP_groupedFrom {n i : Nat} {ds : List Char} (hd : ∀ d ∈ ds, Integer.isDigit d = true) :
    (groupedFrom n i ds).countP Integer.isDigit = ds.length := by
  induction ds generalizing i with
  | nil => rfl
  | cons d ds ih =>
    obtain ⟨hfirst, hd⟩ := List.forall_mem_cons.mp hd
    have hcomma : Integer.isDigit ',' = false := rfl
    rw [groupedFrom_cons, List.countP_append, ih hd]
    split <;> simp [hfirst, hcomma, Nat.add_comm]

theorem digit_last_cons {cs : List Char} (c : Char) (h : ∃ d ∈ cs.getLast?, Integer.isDigit d = true) :
    ∃ d ∈ (c :: cs).getLast?, Integer.isDigit d = true := by
  obtain ⟨d, hlast, hdigit⟩ := h
  refine ⟨d, ?_, hdigit⟩
  rw [List.getLast?_cons, Option.mem_def.mp hlast]
  rfl

/-- Where the digits from a place on are cut at a comma, a digit stands before it unless they begin with it, and groups
follow. -/
theorem groupedFrom_split {n i : Nat} {ds before after : List Char} (hd : ∀ d ∈ ds, Integer.isDigit d = true)
    (hn : i + ds.length = n) (h : groupedFrom n i ds = before ++ ',' :: after) :
    (before = [] ∧ 0 < i ∨ ∃ d ∈ before.getLast?, Integer.isDigit d = true) ∧ GroupsFollow after := by
  induction ds generalizing i before with
  | nil => simp [groupedFrom] at h
  | cons d ds ih =>
    obtain ⟨hfirst, hd⟩ := List.forall_mem_cons.mp hd
    rw [List.length_cons] at hn
    -- what follows the digit is cut at a comma with a digit before it: this one or a later one
    have behind {before : List Char} (h : d :: groupedFrom n (i + 1) ds = before ++ ',' :: after) :
        (∃ d ∈ before.getLast?, Integer.isDigit d = true) ∧ GroupsFollow after := by
      rcases List.cons_eq_append_iff.mp h with ⟨-, hcons⟩ | ⟨rest, rfl, hrest⟩
      · rw [← (List.cons.inj hcons).1] at hfirst
        cases hfirst
      · obtain ⟨⟨rfl, -⟩ | hlast, hafter⟩ := ih hd (by omega) hrest
        · exact ⟨⟨d, rfl, hfirst⟩, hafter⟩
        · exact ⟨digit_last_cons d hlast, hafter⟩
    rw [groupedFrom_cons] at h
    split at h
    · rename_i hcomma
      rw [Bool.and_eq_true, decide_eq_true_eq, beq_iff_eq] at hcomma
      rcases List.cons_eq_append_iff.mp h with ⟨rfl, hcons⟩ | ⟨rest, rfl, hrest⟩
      · have hafter : after = d :: groupedFrom n (i + 1) ds := (List.cons.inj hcons).2
        have hcount : after.countP Integer.isDigit = ds.length + 1 := by
          rw [hafter, List.countP_cons_of_pos hfirst, countP_groupedFrom hd]
        refine ⟨.inl ⟨rfl, hcomma.1⟩, ⟨?_, by omega, by omega⟩⟩
        rw [hafter]
        exact List.forall_mem_cons.mpr ⟨.inl hfirst, fun c hc => mem_groupedFrom hd hc⟩
      · obtain ⟨hlast, hafter⟩ := behind hrest
        exact ⟨.inr (digit_last_cons ',' hlast), hafter⟩
    · obtain ⟨hlast, hafter⟩ := behind h
      exact ⟨.inr hlast, hafter⟩

theorem grouped_signed {n : Int} {ds : List Char} (hd : ∀ d ∈ ds, Integer.isDigit d = true) :
    Grouped (signed n (grouped ds)) := by
  have hdigits {before after : List Char} (h : grouped ds = before ++ ',' :: after) :
      (∃ d ∈ before.getLast?, Integer.isDigit d = true) ∧ GroupsFollow after := by
    obtain ⟨hlast | hlast, hafter⟩ := groupedFrom_split hd (Nat.zero_add _) h
    · exact absurd hlast.2 (Nat.lt_irrefl 0)
    · exact ⟨hlast, hafter⟩
  intro before after h
  unfold signed at h
  split at h
  · rcases List.cons_eq_append_iff.mp h with ⟨-, hcons⟩ | ⟨rest, rfl, hrest⟩
    · cases (List.cons.inj hcons).1
    · obtain ⟨hlast, hafter⟩ := hdigits hrest
      exact ⟨digit_last_cons '-' hlast, hafter⟩
  · exact hdigits h

/-- Without its commas a grouped text is the text of the integer. -/
theorem filter_signed_grouped {n : Int} {ds : List Char} (hd : ∀ d ∈ ds, Integer.isDigit d = true) :
    (signed n (grouped ds)).filter (· != ',') = signed n ds := by
  have hcomma : ',' ∉ ds := fun h => by cases hd ',' h
  have hgrouped : (grouped ds).filter (· != ',') = ds := filter_groupedFrom hcomma
  unfold signed
  split
  · rw [List.filter_cons_of_pos (by decide), hgrouped]
  · exact hgrouped

/-! ### Items with a form -/

def formed (form : String) : String := "\x7b0:" ++ form ++ "\x7d"

theorem pieces_formed {form : String} (h : '\x7d' ∉ form.toList) :
    pieces 0 (formed form).toList = [.item ⟨['0'], none, some form.toList⟩] := by
  have hkept : ∀ c ∈ form.toList, (c != '\x7d') = true := fun c hc => by
    rw [bne_iff_ne]
    rintro rfl
    exact h hc
  have htake : (form.toList ++ ['\x7d']).takeWhile (· != '\x7d') = form.toList := by
    rw [List.takeWhile_append_of_pos hkept]
    simp
  have hdrop : (form.toList ++ ['\x7d']).dropWhile (· != '\x7d') = ['\x7d'] := by
    rw [List.dropWhile_append_of_pos hkept]
    simp
  have hitem : item? ('0' :: ':' :: (form.toList ++ ['\x7d'])) =
      some (⟨['0'], none, some form.toList⟩, form.toList.length + 4) := by
    have hzero : ('0' :: ':' :: (form.toList ++ ['\x7d'])).takeWhile Digit.isDecimal = ['0'] := rfl
    have hrest : ('0' :: ':' :: (form.toList ++ ['\x7d'])).dropWhile Digit.isDecimal =
        ':' :: (form.toList ++ ['\x7d']) := rfl
    simp only [item?, hzero, hrest]
    simp [htake, hdrop]
  have hshape : (formed form).toList = '\x7b' :: '0' :: ':' :: (form.toList ++ ['\x7d']) := by
    simp [formed]
  have hskip := pieces_skip ('0' :: ':' :: (form.toList ++ ['\x7d'])) []
  rw [List.append_nil] at hskip
  rw [hshape, pieces, if_neg (by simp), hitem]
  refine congrArg (_ :: ·) (Eq.trans (congrArg (pieces · _) ?_) hskip)
  simp

theorem format_formed (f : String) {n : Int} (hn : Integer.Fits n) {form : String} {cs : List Char}
    (hne : form.toList ≠ []) (hform : '\x7d' ∉ form.toList) (h : integer n form.toList = .ok cs) :
    format ⟨f, [.str (formed form), .int n]⟩ = .ok (.str (String.ofList cs)) := by
  have hint : (Json.int n).int64? = some n := Number.inRange?_of_fits hn
  have hzero : Integer.natural Integer.maxNat64 ['0'] = .ok 0 := rfl
  have hvalue : value (.int n) (some form.toList) = .ok cs := by
    obtain ⟨kind, ds, hletters⟩ := List.exists_cons_of_ne_nil hne
    rw [hletters] at h ⊢
    simp only [value, hint]
    exact h
  have hrender : render [.int n] ⟨['0'], none, some form.toList⟩ = .ok cs := by
    simp only [render, hzero, bind, Except.bind, pure, Except.pure, List.getElem?_cons_zero, hvalue, align_zero]
  refine format_eq f _ [.int n] ?_
  rw [pieces_formed hform, renderAll, hrender]
  exact congrArg Except.ok (List.append_nil cs)

theorem precision_natText {k : Nat} (h : k ≤ Integer.maxNat64) : precision (Integer.natText k) = k := by
  have hdigits : (Integer.natText k).all Integer.isDigit = true :=
    List.all_eq_true.mpr fun c => Integer.isDigit_of_mem_natText
  rw [precision, hdigits, Integer.natural_natText h]
  simp [Integer.natText_ne_nil]

theorem decimal_toList (k : Nat) : ("D" ++ Args.count k).toList = 'D' :: Integer.natText k := by
  simp [Args.count]

theorem integer_decimal (n : Int) {k : Nat} (hk : k ≤ maxPadded) :
    integer n ('D' :: Integer.natText k) = .ok (signed n (zeroPadded k (Integer.natText n.natAbs))) := by
  have hword : k ≤ Integer.maxNat64 := Nat.le_trans hk (by decide)
  have hchecked : checkPadded "format" "precision" k = .ok () := if_neg (Nat.not_lt.mpr hk)
  simp only [integer, precision_natText hword, hchecked]
  rfl

theorem integer_grouped (n : Int) :
    integer n ['N', '0'] = .ok (signed n (grouped (Integer.natText n.natAbs))) := rfl

/-- An integer of 64 bits is read back from its texts. Padded to a number of digits that may be asked for, its text has
a minus if it is negative and then that many digits, or as many as it needs. Grouped, its text has a comma behind a
digit and before a positive multiple of three digits wherever it has one, and is read back without the commas. -/
theorem int_formatted (f g h : String) {n : Int} (hn : Integer.Fits n) :
    (∀ k ≤ maxPadded, ∃ ds : List Char,
      format ⟨f, [.str (formed ("D" ++ Args.count k)), .int n]⟩ =
          .ok (.str (String.ofList (if n < 0 then '-' :: ds else ds))) ∧
        (∀ d ∈ ds, Integer.isDigit d = true) ∧ ds.length = max k (Integer.natText n.natAbs).length ∧
        Arithmetic.int ⟨g, [.str (String.ofList (if n < 0 then '-' :: ds else ds))]⟩ = .ok (.int n)) ∧
    (∃ text plain : String,
      format ⟨f, [.str (formed "N0"), .int n]⟩ = .ok (.str text) ∧ Grouped text.toList ∧
        Texts.replace ⟨h, [.str text, .str ",", .str ""]⟩ = .ok (.str plain) ∧
        Arithmetic.int ⟨g, [.str plain]⟩ = .ok (.int n)) ∧
    ∃ text : String, Texts.string ⟨f, [.int n]⟩ = .ok (.str text) ∧ Arithmetic.int ⟨g, [.str text]⟩ = .ok (.int n) := by
  have hdigits : ∀ d ∈ Integer.natText n.natAbs, Integer.isDigit d = true := fun d => Integer.isDigit_of_mem_natText
  have hplain := Arithmetic.int_signed g hn (Integer.natText_ne_nil n.natAbs) hdigits
    (Integer.ofDigitChars_natText n.natAbs)
  refine ⟨fun k hk => ?_, ?_, _, rfl, hplain⟩
  · have hne : ("D" ++ Args.count k).toList ≠ [] := by simp
    have hbrace : '\x7d' ∉ ("D" ++ Args.count k).toList := by
      rw [decimal_toList]
      rintro (_ | ⟨_, hk⟩)
      cases Integer.isDigit_of_mem_natText hk
    have hform := integer_decimal n hk
    rw [← decimal_toList] at hform
    refine ⟨zeroPadded k (Integer.natText n.natAbs), format_formed f hn hne hbrace hform,
      fun d => isDigit_of_mem_zeroPadded, length_zeroPadded k _, ?_⟩
    exact Arithmetic.int_signed g hn (zeroPadded_natText_ne_nil k _) (fun d => isDigit_of_mem_zeroPadded)
      (ofDigitChars_zeroPadded k _)
  · have hform : integer n "N0".toList = _ := integer_grouped n
    have hformat := format_formed f hn (by decide) (by decide) hform
    refine ⟨_, _, hformat, ?_, Texts.replace_comma h _, ?_⟩
    · rw [String.toList_ofList]
      exact grouped_signed hdigits
    · rw [String.toList_ofList, filter_signed_grouped hdigits]
      exact hplain

/-- The least integer of 64 bits, to 25 digits and in groups. -/
theorem int_formatted_least : Integer.Fits (-9223372036854775808) ∧ 25 ≤ maxPadded ∧
    (∃ ds : List Char,
      format ⟨"format", [.str "\x7b0:D25\x7d", .int (-9223372036854775808)]⟩ = .ok (.str (String.ofList ('-' :: ds))) ∧
        (∀ d ∈ ds, Integer.isDigit d = true) ∧ ds.length = 25 ∧
        Arithmetic.int ⟨"int", [.str (String.ofList ('-' :: ds))]⟩ = .ok (.int (-9223372036854775808))) ∧
    ∃ text plain : String,
      format ⟨"format", [.str "\x7b0:N0\x7d", .int (-9223372036854775808)]⟩ = .ok (.str text) ∧ Grouped text.toList ∧
        Texts.replace ⟨"replace", [.str text, .str ",", .str ""]⟩ = .ok (.str plain) ∧
        Arithmetic.int ⟨"int", [.str plain]⟩ = .ok (.int (-9223372036854775808)) := by
  have hfits : Integer.Fits (-9223372036854775808) := by decide
  have hmost : 25 ≤ maxPadded := by decide
  obtain ⟨hpadded, hgrouped, -⟩ := int_formatted "format" "int" "replace" hfits
  exact ⟨hfits, hmost, hpadded 25 hmost, hgrouped⟩

end Format
end Catalog
end ResourceTemplate
