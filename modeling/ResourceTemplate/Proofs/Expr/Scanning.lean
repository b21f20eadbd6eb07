import Mathlib.Data.List.TakeWhile
import ResourceTemplate.Proofs.Expr.Grammar

namespace ResourceTemplate.Expr

open Text (byteLength)

def Stops (p : Char → Bool) (r : List Char) : Prop := ∀ c ∈ r.head?, p c = false

@[simp] theorem stops_cons {p : Char → Bool} {c : Char} {r : List Char} :
    Stops p (c :: r) ↔ p c = false := by
  simp [Stops]

theorem stops_dropWhile (p : Char → Bool) (r : List Char) : Stops p (r.dropWhile p) := by
  have h := List.head?_dropWhile_not p r
  intro c hc
  rw [Option.mem_def.mp hc] at h
  exact h

namespace Cursor

/-- The cursor `c'` stands after the text `w` that begins at `c`. -/
structure Reads (c : Cursor) (w : List Char) (c' : Cursor) : Prop where
  rest : c.rest = w ++ c'.rest
  offset : c'.offset = c.offset + byteLength w

namespace Reads

theorem refl (c : Cursor) : Reads c [] c := ⟨rfl, rfl⟩

theorem trans {a b c : Cursor} {v w : List Char} (h : Reads a v b) (h' : Reads b w c) :
    Reads a (v ++ w) c :=
  ⟨by rw [h.rest, h'.rest, List.append_assoc],
    by rw [h'.offset, h.offset, Text.byteLength_append, Nat.add_assoc]⟩

end Reads

theorem eat?_cons (ch : Char) (i : Nat) (r : List Char) :
    eat? ch ⟨i, ch :: r⟩ = some ⟨i + ch.utf8Size, r⟩ := by
  simp [eat?, past]

theorem eat?_of_stops {ch : Char} {c : Cursor} (h : Stops (· == ch) c.rest) :
    eat? ch c = none := by
  obtain ⟨i, _ | ⟨x, r⟩⟩ := c
  · rfl
  · simpa [eat?] using h

theorem eat?_eq_some {ch : Char} {c c' : Cursor} (h : eat? ch c = some c') :
    Reads c [ch] c' := by
  obtain ⟨i, _ | ⟨x, r⟩⟩ := c
  · simp [eat?] at h
  · simp only [eat?, past, Option.ite_none_right_eq_some, Option.some.injEq, beq_iff_eq] at h
    obtain ⟨rfl, rfl⟩ := h
    exact ⟨rfl, rfl⟩

theorem run_append {p : Char → Bool} {w r : List Char} (hw : w.all p = true) (hr : Stops p r)
    (i : Nat) : run p ⟨i, w ++ r⟩ = (w, ⟨i + byteLength w, r⟩) := by
  have hmem := List.all_eq_true.mp hw
  have htake : r.takeWhile p = [] := by cases r <;> simp_all
  have hdrop : r.dropWhile p = r := by cases r <;> simp_all
  simp [run, past, List.takeWhile_append_of_pos hmem, List.dropWhile_append_of_pos hmem, htake,
    hdrop]

theorem reads_run (p : Char → Bool) (c : Cursor) : Reads c (c.run p).1 (c.run p).2 :=
  ⟨List.takeWhile_append_dropWhile.symm, rfl⟩

theorem skipBlanks_append {w r : List Char} (hw : w.all isBlank = true) (hr : Stops isBlank r)
    (i : Nat) : skipBlanks ⟨i, w ++ r⟩ = ⟨i + byteLength w, r⟩ := by
  rw [skipBlanks, run_append hw hr]

theorem skipBlanks_of_stops {r : List Char} (hr : Stops isBlank r) (i : Nat) :
    skipBlanks ⟨i, r⟩ = ⟨i, r⟩ :=
  skipBlanks_append (w := []) rfl hr i

theorem exists_reads_skipBlanks (c : Cursor) :
    ∃ b : Grammar.Blanks, Reads c b.text c.skipBlanks :=
  ⟨⟨(c.run isBlank).1, List.all_takeWhile⟩, reads_run isBlank c⟩

def blanks : List Char := [' ', '\t', '\r', '\n']

theorem mem_blanks_of_isBlank {c : Char} (h : isBlank c = true) : c ∈ blanks := by
  simpa [isBlank, blanks, or_assoc] using h

def avoids (p : Char → Bool) (cs : List Char) : Bool := cs.all fun c => !p c

theorem eq_false_of_avoids {p : Char → Bool} {cs : List Char} {c : Char}
    (h : avoids p cs = true) (hc : c ∈ cs) : p c = false := by
  simpa using List.all_eq_true.mp h c hc

theorem not_isBlank {p : Char → Bool} {c : Char} (hp : avoids p blanks = true) (h : p c = true) :
    isBlank c = false := by
  refine Bool.eq_false_iff.mpr fun hb => ?_
  rw [eq_false_of_avoids hp (mem_blanks_of_isBlank hb)] at h
  cases h

section Blanks

variable {p : Char → Bool} {x : Char} {r : List Char} (b : Grammar.Blanks)

/-- A text that stops behind blanks stops before them, if the class has no blank. -/
theorem stops_blanks (hp : avoids p blanks = true) (hx : p x = false) :
    Stops p (b.text ++ x :: r) := by
  obtain ⟨_ | ⟨c, w⟩, hb⟩ := b
  · exact stops_cons.mpr hx
  · have hc := List.all_eq_true.mp hb c List.mem_cons_self
    exact stops_cons.mpr (eq_false_of_avoids hp (mem_blanks_of_isBlank hc))

theorem skipBlanks_blanks (hx : isBlank x = false) (i : Nat) :
    skipBlanks ⟨i, b.text ++ x :: r⟩ = ⟨i + byteLength b.text, x :: r⟩ :=
  skipBlanks_append b.blank (stops_cons.mpr hx) i

/-- A character that is no blank is not eaten before blanks and another character. -/
theorem eat?_blanks (ch : Char) (hch : avoids (· == ch) blanks = true) (hx : (x == ch) = false)
    (i : Nat) : eat? ch ⟨i, b.text ++ x :: r⟩ = none :=
  eat?_of_stops (stops_blanks b hch hx)

end Blanks

end Cursor

open Cursor Grammar

/-- What a rule does at the cursor `c`: it reads a word as `P` tells, or fails at a place that can
be reached from `c`. -/
def Reading {α : Type} (c : Cursor) (P : α → List Char → Prop) :
    Except SyntaxError (α × Cursor) → Prop
  | .ok (a, c') => ∃ w, Reads c w c' ∧ P a w
  | .error err => ∃ w c', Reads c w c' ∧ err.position = c'.offset

namespace Reading

variable {α β : Type} {c c' : Cursor} {v w : List Char} {P : α → List Char → Prop}

theorem ok {a : α} (h : Reads c w c') (ha : P a w) : Reading c P (.ok (a, c')) := ⟨w, h, ha⟩

theorem error {cause : SyntaxCause} (h : Reads c w c') :
    Reading c P (.error ⟨c'.offset, cause⟩) :=
  ⟨w, c', h, rfl⟩

theorem after {Q : α → List Char → Prop} {x : Except SyntaxError (α × Cursor)}
    (h : Reads c v c') (hx : Reading c' P x) (hPQ : ∀ a w, P a w → Q a (v ++ w)) :
    Reading c Q x := by
  match x, hx with
  | .ok (a, _), ⟨w, hw, ha⟩ => exact ⟨v ++ w, h.trans hw, hPQ a w ha⟩
  | .error _, ⟨w, last, hw, hpos⟩ => exact ⟨v ++ w, last, h.trans hw, hpos⟩

/-- What follows a rule that was entered after the word `v`. -/
theorem bind {Q : β → List Char → Prop} {x : Except SyntaxError (α × Cursor)}
    {f : α × Cursor → Except SyntaxError (β × Cursor)} (h : Reads c v c') (hx : Reading c' P x)
    (hf : ∀ a w last, Reads c (v ++ w) last → P a w → Reading c Q (f (a, last))) :
    Reading c Q (x >>= f) := by
  match x, hx with
  | .ok (a, last), ⟨w, hw, ha⟩ => exact hf a w last (h.trans hw) ha
  | .error _, ⟨w, last, hw, hpos⟩ => exact ⟨v ++ w, last, h.trans hw, hpos⟩

end Reading

section Identifiers

theorem isIdentRest_of_isIdentStart {c : Char} (h : isIdentStart c = true) :
    isIdentRest c = true := by
  simp [isIdentRest, h]

theorem ident?_append (n : Identifier) {r : List Char} (hr : Stops isIdentRest r) (i : Nat) :
    ident? ⟨i, n.text ++ r⟩ = some (n.name, ⟨i + byteLength n.text, r⟩) := by
  simp [ident?, Identifier.text, Identifier.name, n.starts, past, run_append n.continues hr,
    Nat.add_assoc]

theorem ident?_of_stops {c : Cursor} (h : Stops isIdentStart c.rest) : ident? c = none := by
  obtain ⟨i, _ | ⟨x, r⟩⟩ := c
  · rfl
  · simpa [ident?] using h

theorem ident?_eq_some {c c' : Cursor} {name : String} (h : ident? c = some (name, c')) :
    ∃ n : Identifier, Reads c n.text c' ∧ n.name = name := by
  obtain ⟨i, _ | ⟨x, r⟩⟩ := c
  · simp [ident?] at h
  · simp only [ident?, past, Option.ite_none_right_eq_some, Option.some.injEq, Prod.mk.injEq] at h
    obtain ⟨hx, rfl, rfl⟩ := h
    have hrun : Reads ⟨i + byteLength [x], r⟩ (r.takeWhile isIdentRest) _ :=
      reads_run isIdentRest _
    exact ⟨⟨x, _, hx, List.all_takeWhile⟩, ⟨congrArg (x :: ·) hrun.rest, hrun.offset.trans
      (by simp [Identifier.text, Nat.add_assoc])⟩, rfl⟩

end Identifiers

section Literals

theorem eat?_minus_of_isDigit {x : Char} (h : isDigit x = true) (i : Nat) (r : List Char) :
    eat? '-' ⟨i, x :: r⟩ = none := by
  refine eat?_of_stops (stops_cons.mpr (beq_eq_false_iff_ne.mpr ?_))
  rintro rfl
  simp [isDigit] at h

theorem integer_append (n : Grammar.Integer) {r : List Char} (hr : Stops isDigit r) (i : Nat) :
    integer ⟨i, n.text ++ r⟩ =
      ((Primary.integer n).tree i, ⟨i + byteLength n.text, r⟩) := by
  have hdigits : (n.first :: n.more).all isDigit = true := by
    rw [List.all_cons, n.digit, n.digits, Bool.and_self]
  have hrun := run_append hdigits hr
  rw [List.cons_append] at hrun
  rw [Primary.tree, Grammar.Integer.text, Grammar.Integer.sign]
  cases n.negative with
  | true => simp [integer, eat?_cons, hrun, Nat.add_assoc]
  | false => simp [integer, eat?_minus_of_isDigit n.digit, hrun]

/-- The sign and the digits that begin an expression where no quote and no letter stands. -/
theorem exists_digit_of_beginsPrimary {c : Cursor} (hb : beginsPrimary c.rest = true)
    (hq : eat? '\'' c = none) (hi : ident? c = none) :
    ∃ (negative : Bool) (x : Char) (r : List Char), isDigit x = true ∧
      c.rest = (if negative then ['-'] else []) ++ x :: r := by
  obtain ⟨i, rest⟩ := c
  dsimp only at hb
  unfold beginsPrimary at hb
  split at hb
  · exact ⟨true, _, _, hb, rfl⟩
  · rename_i x r _
    have hquote : (x == '\'') = false := by simpa [eat?] using hq
    have hletter : isIdentStart x = false := by simpa [ident?] using hi
    rw [hquote, hletter, Bool.false_or, Bool.or_false] at hb
    exact ⟨false, x, r, hb, rfl⟩
  · cases hb

theorem integer_reads {c : Cursor} (hb : beginsPrimary c.rest = true) (hq : eat? '\'' c = none)
    (hi : ident? c = none) :
    ∃ n : Grammar.Integer, Reads c n.text (integer c).2 ∧
      (Primary.integer n).tree c.offset = (integer c).1 := by
  obtain ⟨negative, x, r, hx, hrest⟩ := exists_digit_of_beginsPrimary hb hq hi
  obtain ⟨i, _⟩ := c
  obtain rfl := hrest
  let n : Grammar.Integer := ⟨negative, x, r.takeWhile isDigit, hx, List.all_takeWhile⟩
  have hstop : Stops isDigit (r.dropWhile isDigit) := stops_dropWhile _ _
  have htext : n.text ++ r.dropWhile isDigit = (if negative then ['-'] else []) ++ x :: r := by
    simp [n, Grammar.Integer.text, Grammar.Integer.sign]
  rw [← htext, integer_append n hstop]
  exact ⟨n, ⟨rfl, rfl⟩, rfl⟩

theorem quoted_append (content : List Char) {r : List Char} (hr : Stops (· == '\'') r)
    (acc : List Char) (start i : Nat) :
    quoted acc start i (escape content ++ '\'' :: r) =
      .ok (String.ofList (acc.reverse ++ content), ⟨i + byteLength (escape content) + 1, r⟩) := by
  induction content generalizing acc start i with
  | nil =>
    match r with
    | [] => simp [escape, quoted]
    | x :: r =>
      have hx : x ≠ '\'' := by simpa using hr
      simp [escape, quoted, hx]
  | cons x content ih =>
    by_cases hx : x = '\''
    · subst hx
      have : '\''.utf8Size = 1 := rfl
      simp only [escape, List.flatMap_cons, if_true, List.cons_append, List.nil_append] at ih ⊢
      rw [quoted, ih]
      simp [this]
      omega
    · simp only [escape, List.flatMap_cons, if_neg hx, List.cons_append, List.nil_append] at ih ⊢
      rw [quoted, ih]
      · simp [Nat.add_assoc]
      · simp [hx]
      · simp [hx]

/-- A quoted text is the escape of what it reads as. An error stands at the cursor `c` after the
quote that was opened or undone last. -/
theorem quoted_reading (rest acc : List Char) (start i : Nat) (c : Cursor) (v : List Char)
    (hv : Reads c v ⟨i, rest⟩) (hstart : c.offset = start) :
    Reading c (fun text w => ∃ content, text = String.ofList (acc.reverse ++ content) ∧
      w = v ++ (escape content ++ ['\''])) (quoted acc start i rest) := by
  fun_induction quoted acc start i rest generalizing c v with
  | case1 =>
    subst hstart
    exact .error (.refl c)
  | case2 acc start i rest ih =>
    have hundone : Reads c (v ++ ['\'', '\'']) ⟨i + 2, rest⟩ := hv.trans ⟨rfl, rfl⟩
    refine .after hundone (ih ⟨i + 2, rest⟩ [] (.refl _) rfl) ?_
    rintro text _ ⟨content, rfl, rfl⟩
    exact ⟨'\'' :: content, by simp, by simp [escape]⟩
  | case3 acc start i rest =>
    have hread : Reads c (v ++ ['\'']) ⟨i + 1, rest⟩ := hv.trans ⟨rfl, rfl⟩
    exact .ok hread ⟨[], by simp, by simp [escape]⟩
  | case4 acc start i x rest _ hquote ih =>
    have hx : x ≠ '\'' := hquote
    have hread : Reads c (v ++ [x]) ⟨i + x.utf8Size, rest⟩ := hv.trans ⟨rfl, rfl⟩
    refine .after (.refl c) (ih c (v ++ [x]) hread hstart) ?_
    rintro text _ ⟨content, rfl, rfl⟩
    exact ⟨x :: content, by simp, by simp [escape, hx]⟩

theorem keyword?_congr {a b : String} (h : Name.same a b = true) : keyword? a = keyword? b := by
  unfold keyword? Name.same
  rw [Name.same_iff.mp h]

theorem keyword?_text (k : Keyword) : keyword? (String.ofList k.text) = some k.constant.tree := by
  rw [keyword?_congr k.spelled]
  cases k.constant <;> rfl

theorem keyword?_eq_some {word : String} {e : Expr} (h : keyword? word = some e) :
    ∃ k : Constant, Name.same word k.word = true ∧ k.tree = e := by
  unfold keyword? at h
  split at h
  next ht => exact ⟨.true, ht, Option.some.inj h⟩
  split at h
  next hf => exact ⟨.false, hf, Option.some.inj h⟩
  split at h
  next hn => exact ⟨.null, hn, Option.some.inj h⟩
  cases h

theorem isIdentStart_of_toLower {c : Char} (h : isIdentStart c.toLower = true) :
    isIdentStart c = true := by
  unfold Char.toLower at h
  split at h
  next hupper =>
    simp [isIdentStart, Char.le_def, UInt32.le_iff_toNat_le] at hupper ⊢
    omega
  next => exact h

theorem Grammar.Keyword.exists_identifier (k : Keyword) : ∃ n : Identifier, n.text = k.text := by
  have hfold : k.text.map Char.toLower = k.constant.word.toList.map Char.toLower := by
    simpa [Name.fold] using congrArg String.toList (Name.same_iff.mp k.spelled)
  have hword : (k.constant.word.toList.map Char.toLower).all isIdentStart = true := by
    cases k.constant <;> rfl
  have hletters : ∀ c ∈ k.text, isIdentStart c = true := by
    intro c hc
    have hmem : c.toLower ∈ k.constant.word.toList.map Char.toLower :=
      hfold ▸ List.mem_map_of_mem hc
    exact isIdentStart_of_toLower (List.all_eq_true.mp hword _ hmem)
  match htext : k.text with
  | [] =>
    rw [htext] at hfold
    cases hk : k.constant <;> simp [hk, Constant.word] at hfold
  | x :: more =>
    rw [htext, List.forall_mem_cons] at hletters
    have hmore : more.all isIdentRest = true :=
      List.all_eq_true.mpr fun c hc => isIdentRest_of_isIdentStart (hletters.2 c hc)
    exact ⟨⟨x, more, hletters.1, hmore⟩, rfl⟩

end Literals

section Calls

/-- Where the head of a call stands before a parenthesis, it is found. -/
theorem callHead?_append (h : CallHead) (i : Nat) (r : List Char) :
    ∃ first after, ident? ⟨i, h.text ++ '(' :: r⟩ = some (first, after) ∧
      callHead? first after =
        some (h.ns.map Identifier.name, h.name.name, ⟨i + byteLength h.text, '(' :: r⟩) := by
  have hparen : Stops isIdentRest (h.before.text ++ '(' :: r) :=
    stops_blanks h.before rfl rfl
  have hskip (j : Nat) := skipBlanks_blanks h.before (x := '(') (r := r) rfl j
  obtain ⟨ns, name, before⟩ := h
  cases ns with
  | none =>
    refine ⟨name.name, _, by
      simpa [CallHead.text, CallHead.nsText] using ident?_append name hparen i, ?_⟩
    have hdot (j : Nat) : eat? '.' ⟨j, before.text ++ '(' :: r⟩ = none :=
      eat?_blanks before '.' rfl rfl j
    simp [callHead?, hdot, hskip, eat?_cons, CallHead.text, CallHead.nsText, Nat.add_assoc]
  | some ns =>
    have hdot : Stops isIdentRest ('.' :: (name.text ++ (before.text ++ '(' :: r))) :=
      stops_cons.mpr (by decide)
    refine ⟨ns.name, _, by
      simpa [CallHead.text, CallHead.nsText] using ident?_append ns hdot i, ?_⟩
    simp [callHead?, eat?_cons, ident?_append name hparen, hskip, CallHead.text, CallHead.nsText,
      Nat.add_assoc]

theorem callHead?_eq_some {c after atOpen : Cursor} {first name : String} {ns : Option String}
    (hfirst : ident? c = some (first, after))
    (h : callHead? first after = some (ns, name, atOpen)) :
    ∃ (head : CallHead) (r : List Char), Reads c head.text atOpen ∧ atOpen.rest = '(' :: r ∧
      head.ns.map Identifier.name = ns ∧ head.name.name = name := by
  obtain ⟨n, hn, rfl⟩ := ident?_eq_some hfirst
  unfold callHead? at h
  simp only at h
  split at h
  · rename_i head hq
    cases h
    simp only [Option.bind_eq_bind, Option.bind_eq_some_iff, Option.pure_def, Option.some.injEq,
      Prod.mk.injEq, Prod.exists] at hq
    obtain ⟨afterDot, hdot, second, afterSecond, hsecond, c', hopen, rfl, rfl, rfl⟩ := hq
    obtain ⟨m, hm, rfl⟩ := ident?_eq_some hsecond
    obtain ⟨b, hb⟩ := exists_reads_skipBlanks afterSecond
    have hread : Reads c (CallHead.text ⟨some n, m, b⟩) afterSecond.skipBlanks := by
      simpa [CallHead.text, CallHead.nsText] using
        hn.trans ((eat?_eq_some hdot).trans (hm.trans hb))
    exact ⟨⟨some n, m, b⟩, c'.rest, hread, (eat?_eq_some hopen).rest, rfl, rfl⟩
  · obtain ⟨b, hb⟩ := exists_reads_skipBlanks after
    simp only [Option.map_eq_some_iff, Prod.mk.injEq] at h
    obtain ⟨c', hopen, rfl, rfl, rfl⟩ := h
    exact ⟨⟨none, n, b⟩, c'.rest, hn.trans hb, (eat?_eq_some hopen).rest, rfl, rfl⟩

end Calls

end ResourceTemplate.Expr
