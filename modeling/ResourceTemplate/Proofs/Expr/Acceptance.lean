import ResourceTemplate.Proofs.Expr.Reading

namespace ResourceTemplate.Expr

open Cursor Grammar
open Text (byteLength)

/-! What may follow. -/

def Resumes (marks : List Char) (r : List Char) : Prop :=
  ∃ (b : Blanks) (x : Char) (r' : List Char), x ∈ marks ∧ r = b.text ++ x :: r'

def closers : List Char := [']', ')', ',']

/-- The marks after a primary expression: those that end the expression and those that begin an
accessor. -/
def marks : List Char := '.' :: '[' :: closers

namespace Resumes

variable {ms : List Char} {r : List Char}

theorem mono {ms' : List Char} (h : Resumes ms r) (hsub : ms ⊆ ms') : Resumes ms' r := by
  obtain ⟨b, x, r', hx, rfl⟩ := h
  exact ⟨b, x, r', hsub hx, rfl⟩

theorem stops {p : Char → Bool} (h : Resumes ms r) (hp : avoids p (blanks ++ ms) = true) :
    Stops p r := by
  obtain ⟨b, x, r', hx, rfl⟩ := h
  rw [avoids, List.all_append, Bool.and_eq_true] at hp
  exact stops_blanks b hp.1 (eq_false_of_avoids hp.2 hx)

theorem eat?_skipBlanks (ch : Char) (h : Resumes ms r) (hms : avoids isBlank ms = true)
    (hch : avoids (· == ch) ms = true) (i : Nat) : eat? ch (skipBlanks ⟨i, r⟩) = none := by
  obtain ⟨b, x, r', hx, rfl⟩ := h
  rw [skipBlanks_blanks b (eq_false_of_avoids hms hx)]
  exact eat?_of_stops (stops_cons.mpr (eq_false_of_avoids (p := (· == ch)) hch hx))

end Resumes

/-- What may follow a primary expression: a mark, and not the rest of the head of a call. -/
structure Follows (r : List Char) : Prop where
  resumes : Resumes marks r
  plain : ∀ first i, callHead? first ⟨i, r⟩ = none

theorem Grammar.Accessors.resumes (v : Accessors) {r : List Char} (hr : Resumes closers r) :
    Resumes marks (v.text ++ r) := by
  cases v with
  | nil => exact hr.mono (by simp [marks])
  | property before inside name more =>
    exact ⟨before, '.', _, by simp [marks], by rw [Accessors.text, List.append_assoc]; rfl⟩
  | index before opened e closed more =>
    exact ⟨before, '[', _, by simp [marks], by rw [Accessors.text, List.append_assoc]; rfl⟩

theorem Grammar.Blanks.eq_nil {b : Blanks} {x : Char} {v w : List Char} (hx : isBlank x = false)
    (h : b.text ++ v = x :: w) : b.text = [] := by
  obtain ⟨_ | ⟨y, bs⟩, hb⟩ := b
  · rfl
  · obtain rfl : y = x := (List.cons.inj h).1
    rw [List.all_eq_true.mp hb y List.mem_cons_self] at hx
    cases hx

theorem callHead?_eq_none {c : Cursor} (first : String) (hplain : eat? '(' (skipBlanks c) = none)
    (hqualified : ∀ afterDot second after, eat? '.' c = some afterDot →
      ident? afterDot = some (second, after) → eat? '(' (skipBlanks after) = none) :
    callHead? first c = none := by
  unfold callHead?
  cases hdot : eat? '.' c with
  | none => simp [hplain]
  | some afterDot =>
    cases hsecond : ident? afterDot with
    | none => simp [hplain, hsecond]
    | some found => simp [hplain, hsecond, hqualified afterDot found.1 found.2 hdot hsecond]

theorem Grammar.Accessors.follows (v : Accessors) {r : List Char} (hr : Resumes closers r) :
    Follows (v.text ++ r) := by
  have hparen (v : Accessors) (i : Nat) : eat? '(' (skipBlanks ⟨i, v.text ++ r⟩) = none :=
    (v.resumes hr).eat?_skipBlanks '(' rfl rfl i
  refine ⟨v.resumes hr, fun first i => callHead?_eq_none first (hparen v i) ?_⟩
  intro afterDot second after hdot hsecond
  -- Only a property without blanks around its point can look like the rest of a head.
  cases v with
  | nil =>
    obtain ⟨b, x, r', hx, rfl⟩ := hr
    have hne : (x == '.') = false := eq_false_of_avoids (p := (· == '.')) rfl hx
    have hnone := eat?_blanks (r := r') b '.' rfl hne i
    cases hnone.symm.trans hdot
  | index before opened e closed more =>
    rw [Accessors.text, List.append_assoc, List.cons_append, eat?_blanks _ '.' rfl rfl]
      at hdot
    cases hdot
  | property before inside name more =>
    have hrest := (eat?_eq_some hdot).rest
    rw [Accessors.text, List.append_assoc, List.cons_append] at hrest
    rw [Blanks.eq_nil (by decide) hrest] at hrest
    have hafter := (List.cons.inj hrest).2
    obtain ⟨n, hn, rfl⟩ := ident?_eq_some hsecond
    rw [hn.rest, List.append_assoc, List.append_assoc] at hafter
    have hnil : inside.text = [] := Blanks.eq_nil (not_isBlank rfl n.starts) hafter
    rw [hnil, List.nil_append, ← hn.rest] at hafter
    obtain ⟨j, _⟩ := afterDot
    obtain rfl := hafter
    have hstops : Stops isIdentRest (more.text ++ r) := (more.resumes hr).stops rfl
    rw [ident?_append name hstops, Option.some.injEq, Prod.mk.injEq] at hsecond
    exact hsecond.2 ▸ hparen more _

/-! Where an expression begins. -/

theorem beginsPrimary_cons {x : Char} (r : List Char)
    (h : x = '\'' ∨ isDigit x = true ∨ isIdentStart x = true) : beginsPrimary (x :: r) = true := by
  unfold beginsPrimary
  split
  next heq =>
    obtain ⟨rfl, -⟩ := List.cons.inj heq
    exact absurd h (by decide)
  next y _ heq =>
    obtain ⟨rfl, -⟩ := List.cons.inj heq
    simpa [or_assoc] using h
  next heq => cases heq

theorem beginsPrimary_ident (n : Identifier) (r : List Char) :
    beginsPrimary (n.text ++ r) = true :=
  beginsPrimary_cons _ (.inr (.inr n.starts))

theorem Grammar.Primary.begins (d : Primary) (r : List Char) :
    beginsPrimary (d.text ++ r) = true := by
  cases d with
  | string content => exact beginsPrimary_cons _ (.inl rfl)
  | integer n =>
    obtain ⟨_ | _, x, more, hx, hmore⟩ := n
    · exact beginsPrimary_cons _ (.inr (.inl hx))
    · exact hx
  | keyword k =>
    obtain ⟨n, hn⟩ := k.exists_identifier
    rw [Primary.text, ← hn]
    exact beginsPrimary_ident n r
  | call head opened args =>
    obtain ⟨_ | ns, name, before⟩ := head
    · simp [Primary.text, CallHead.text, CallHead.nsText, beginsPrimary_ident]
    · simp [Primary.text, CallHead.text, CallHead.nsText, beginsPrimary_ident]

theorem Grammar.Expression.begins (d : Expression) (r : List Char) :
    beginsPrimary (d.text ++ r) = true := by
  obtain ⟨p, v⟩ := d
  rw [Expression.text, List.append_assoc]
  exact p.begins _

theorem Grammar.Items.begins (d : Items) (r : List Char) : beginsPrimary (d.text ++ r) = true := by
  cases d with
  | last e => exact e.begins r
  | cons e before after more =>
    rw [Items.text, List.append_assoc]
    exact e.begins _

theorem exists_cons_of_begins {r : List Char} (h : beginsPrimary r = true) :
    ∃ x w, r = x :: w := by
  match r with
  | [] => cases h
  | x :: w => exact ⟨x, w, rfl⟩

theorem Grammar.Primary.length_pos (d : Primary) : 0 < d.text.length := by
  obtain ⟨x, w, h⟩ := exists_cons_of_begins (d.begins [])
  rw [List.append_nil] at h
  simp [h]

theorem stops_isBlank_of_begins {r : List Char} (h : beginsPrimary r = true) :
    Stops isBlank r := by
  unfold beginsPrimary at h
  split at h
  · exact stops_cons.mpr (by decide)
  · exact stops_cons.mpr
      (not_isBlank (p := fun x => x == '\'' || isDigit x || isIdentStart x) rfl h)
  · cases h

/-! Primary expressions that no others are in. -/

theorem string_text (content : List Char) (fuel i : Nat) {r : List Char} (hr : Follows r) :
    primary (fuel + 1) ⟨i, (Primary.string content).text ++ r⟩ =
      .ok ((Primary.string content).tree i,
        ⟨i + byteLength (Primary.string content).text, r⟩) := by
  have hquote : Stops (· == '\'') r := hr.resumes.stops rfl
  have hbegins := (Primary.string content).begins r
  have htext := quoted_append content hquote []
  have hsize : '\''.utf8Size = 1 := rfl
  rw [primary, hbegins]
  simp [Primary.text, eat?_cons, htext, bind, Except.bind, Primary.tree, pure, Except.pure, hsize,
    Nat.add_assoc]

theorem not_isIdentStart_of_isDigit {c : Char} (h : isDigit c = true) : isIdentStart c = false := by
  obtain ⟨h0, h9⟩ : 48 ≤ c.toNat ∧ c.toNat ≤ 57 := by
    simpa [isDigit, Char.le_def, UInt32.le_iff_toNat_le] using h
  have hne (x : Char) (hx : 57 < x.toNat ∨ x.toNat < 48) : (c == x) = false := by
    refine beq_eq_false_iff_ne.mpr ?_
    rintro rfl
    omega
  have hrange (x y : Char) (hx : 57 < x.toNat) : (decide (x ≤ c) && decide (c ≤ y)) = false := by
    have hlt : ¬ x ≤ c := by
      rw [Char.le_def, UInt32.le_iff_toNat_le]
      exact Nat.not_le.mpr (Nat.lt_of_le_of_lt h9 hx)
    rw [decide_eq_false hlt, Bool.false_and]
  rw [isIdentStart, hrange _ _ (by decide), hrange _ _ (by decide), hne _ (by decide),
    hne _ (by decide)]
  rfl

theorem stops_integer {p : Char → Bool} (n : Grammar.Integer) (r : List Char)
    (hsign : p '-' = false) (hdigit : ∀ c, isDigit c = true → p c = false) :
    Stops p (n.text ++ r) := by
  obtain ⟨_ | _, x, more, hx, hmore⟩ := n
  · exact stops_cons.mpr (hdigit x hx)
  · exact stops_cons.mpr hsign

theorem integer_text (n : Grammar.Integer) (fuel i : Nat) {r : List Char} (hr : Follows r) :
    primary (fuel + 1) ⟨i, (Primary.integer n).text ++ r⟩ =
      .ok ((Primary.integer n).tree i, ⟨i + byteLength (Primary.integer n).text, r⟩) := by
  have hdigit : Stops isDigit r := hr.resumes.stops rfl
  have hbegins := (Primary.integer n).begins r
  rw [Primary.text] at hbegins ⊢
  have hquote : eat? '\'' ⟨i, n.text ++ r⟩ = none :=
    eat?_of_stops (stops_integer n r rfl fun c hc => beq_eq_false_iff_ne.mpr (by
      rintro rfl
      exact absurd hc (by decide)))
  have hident : ident? ⟨i, n.text ++ r⟩ = none :=
    ident?_of_stops (stops_integer n r (by decide) fun c => not_isIdentStart_of_isDigit)
  rw [primary, hbegins]
  simp [hquote, hident, integer_append n hdigit]

theorem eat?_quote_of_ident {c after : Cursor} {word : String}
    (h : ident? c = some (word, after)) : eat? '\'' c = none := by
  obtain ⟨n, hn, -⟩ := ident?_eq_some h
  refine eat?_of_stops ?_
  rw [hn.rest]
  refine stops_cons.mpr (beq_eq_false_iff_ne.mpr fun hq => ?_)
  exact absurd (hq ▸ n.starts) (by decide)

theorem keyword_text (k : Keyword) (fuel i : Nat) {r : List Char} (hr : Follows r) :
    primary (fuel + 1) ⟨i, (Primary.keyword k).text ++ r⟩ =
      .ok ((Primary.keyword k).tree i, ⟨i + byteLength (Primary.keyword k).text, r⟩) := by
  have hident : Stops isIdentRest r := hr.resumes.stops rfl
  obtain ⟨n, hn⟩ := k.exists_identifier
  have hbegins := (Primary.keyword k).begins r
  rw [Primary.text, ← hn] at hbegins ⊢
  have hword : keyword? n.name = some k.constant.tree := by
    rw [Identifier.name, hn, keyword?_text]
  rw [primary, hbegins]
  have hfirst := ident?_append n hident i
  simp [eat?_quote_of_ident hfirst, hfirst, hr.plain, hword, Primary.tree]

/-! What has a derivation is read. The fuel that a rule needs is three times the length of its
text, for a rule that may be entered without reading anything one more. -/

mutual

theorem expression_text : ∀ (d : Expression) (fuel i : Nat) {r : List Char}, Resumes closers r →
    3 * d.text.length ≤ fuel →
    expression fuel ⟨i, d.text ++ r⟩ = .ok (d.tree i, ⟨i + byteLength d.text, r⟩)
  | .mk p v, fuel, i, r, hr, hfuel => by
    have hp := p.length_pos
    rw [Expression.text, List.length_append] at hfuel
    obtain ⟨fuel, rfl⟩ : ∃ k, fuel = k + 1 := ⟨fuel - 1, by omega⟩
    have hprimary := primary_text p fuel i (v.follows hr) (by omega)
    have haccessors := accessors_text v fuel i (i + byteLength p.text) (p.tree i) hr (by omega)
    rw [expression, Expression.text, List.append_assoc, hprimary]
    simp only [bind, Except.bind]
    rw [haccessors, Expression.tree, Text.byteLength_append, Nat.add_assoc]

theorem accessors_text : ∀ (d : Accessors) (fuel start i : Nat) (target : Expr) {r : List Char},
    Resumes closers r → 3 * d.text.length + 1 ≤ fuel →
    accessors fuel start target ⟨i, d.text ++ r⟩ =
      .ok (d.tree start i target, ⟨i + byteLength d.text, r⟩)
  | d, 0, start, i, target, r, hr, hfuel => by omega
  | .nil, fuel + 1, start, i, target, r, hr, hfuel => by
    have hdot := hr.eat?_skipBlanks '.' rfl rfl i
    have hopen := hr.eat?_skipBlanks '[' rfl rfl i
    rw [accessors, Accessors.text, List.nil_append]
    simp [hdot, hopen, Accessors.tree]
  | .property before inside name more, fuel + 1, start, i, target, r, hr, hfuel => by
    have hname : Stops isIdentRest (more.text ++ r) := (more.resumes hr).stops rfl
    have hbegins := stops_isBlank_of_begins (beginsPrimary_ident name (more.text ++ r))
    simp only [Accessors.text, List.length_append, List.length_cons] at hfuel
    have hmore (j : Nat) (e : Expr) := accessors_text more fuel start j e hr (by omega)
    simp only [Accessors.text, List.append_assoc, List.cons_append]
    rw [accessors]
    simp [skipBlanks_blanks before (x := '.') (by decide), eat?_cons,
      skipBlanks_append inside.blank hbegins, ident?_append name hname, hmore, Accessors.tree,
      Nat.add_assoc]
  | .index before opened e closed more, fuel + 1, start, i, target, r, hr, hfuel => by
    have hbegins := stops_isBlank_of_begins (e.begins (closed.text ++ ']' :: (more.text ++ r)))
    have hclose : Resumes closers (closed.text ++ ']' :: (more.text ++ r)) :=
      ⟨closed, ']', _, by decide, rfl⟩
    simp only [Accessors.text, List.length_append, List.length_cons] at hfuel
    have he (j : Nat) := expression_text e fuel j hclose (by omega)
    have hmore (j : Nat) (e : Expr) := accessors_text more fuel start j e hr (by omega)
    simp only [Accessors.text, List.append_assoc, List.cons_append]
    rw [accessors]
    simp [skipBlanks_blanks before (x := '[') (by decide), eat?_cons, eat?_of_stops,
      skipBlanks_append opened.blank hbegins, he, skipBlanks_blanks closed (x := ']') (by decide),
      hmore, Accessors.tree, bind, Except.bind, Nat.add_assoc]

theorem primary_text : ∀ (d : Primary) (fuel i : Nat) {r : List Char}, Follows r →
    3 * d.text.length ≤ fuel + 1 →
    primary fuel ⟨i, d.text ++ r⟩ = .ok (d.tree i, ⟨i + byteLength d.text, r⟩)
  | d, 0, i, r, hr, hfuel => by
    have := d.length_pos
    omega
  | .string content, fuel + 1, i, r, hr, _ => string_text content fuel i hr
  | .integer n, fuel + 1, i, r, hr, _ => integer_text n fuel i hr
  | .keyword k, fuel + 1, i, r, hr, _ => keyword_text k fuel i hr
  | .call head opened .none, fuel + 1, i, r, hr, hfuel => by
    have hbegins := (Primary.call head opened .none).begins r
    simp only [Primary.text, Arguments.text, List.append_assoc, List.cons_append, List.nil_append]
      at hbegins ⊢
    obtain ⟨first, after, hfirst, hcall⟩ := callHead?_append head i (opened.text ++ ')' :: r)
    have hclose : isBlank ')' = false := rfl
    have hend : beginsPrimary (')' :: r) = false := rfl
    rw [primary, hbegins]
    simp [eat?_quote_of_ident hfirst, hfirst, hcall, past, skipBlanks_blanks opened hclose, hend,
      skipBlanks_of_stops (stops_cons.mpr hclose), eat?_cons, bind, Except.bind, pure, Except.pure,
      Primary.tree, Arguments.trees, Arguments.text, Nat.add_assoc]
  | .call head opened (.some items closed), fuel + 1, i, r, hr, hfuel => by
    have hbegins := (Primary.call head opened (.some items closed)).begins r
    simp only [Primary.text, Arguments.text, List.length_append, List.length_cons] at hfuel
    simp only [Primary.text, Arguments.text, List.append_assoc, List.cons_append, List.nil_append]
      at hbegins ⊢
    obtain ⟨first, after, hfirst, hcall⟩ :=
      callHead?_append head i (opened.text ++ (items.text ++ (closed.text ++ ')' :: r)))
    have hclose : isBlank ')' = false := rfl
    have hitems := items.begins (closed.text ++ ')' :: r)
    have hresumes : Resumes [')'] (closed.text ++ ')' :: r) :=
      ⟨closed, ')', r, List.mem_singleton_self _, rfl⟩
    have hread (j : Nat) := arguments_text items fuel j hresumes (by omega)
    rw [primary, hbegins]
    simp [eat?_quote_of_ident hfirst, hfirst, hcall, past,
      skipBlanks_append opened.blank (stops_isBlank_of_begins hitems), hitems, hread,
      skipBlanks_blanks closed hclose, eat?_cons, bind, Except.bind, pure, Except.pure,
      Primary.tree, Arguments.trees, Arguments.text, Nat.add_assoc]

theorem arguments_text : ∀ (d : Items) (fuel i : Nat) {r : List Char}, Resumes [')'] r →
    3 * d.text.length + 1 ≤ fuel →
    arguments fuel ⟨i, d.text ++ r⟩ = .ok (d.trees i, ⟨i + byteLength d.text, r⟩)
  | d, 0, i, r, hr, hfuel => by omega
  | .last e, fuel + 1, i, r, hr, hfuel => by
    rw [Items.text] at hfuel
    have he := expression_text e fuel i (hr.mono (by simp [closers])) (by omega)
    have hcomma (j : Nat) := hr.eat?_skipBlanks ',' rfl rfl j
    rw [arguments, Items.text, he]
    simp [bind, Except.bind, hcomma, Items.trees, pure, Except.pure]
  | .cons e before after more, fuel + 1, i, r, hr, hfuel => by
    have hbegins := more.begins r
    have hcomma : Resumes closers (before.text ++ ',' :: (after.text ++ (more.text ++ r))) :=
      ⟨before, ',', _, by decide, rfl⟩
    simp only [Items.text, List.length_append, List.length_cons] at hfuel
    have he := expression_text e fuel i hcomma (by omega)
    have hmore (j : Nat) := arguments_text more fuel j hr (by omega)
    simp only [Items.text, List.append_assoc, List.cons_append]
    rw [arguments, he]
    simp [bind, Except.bind, skipBlanks_blanks before (x := ',') (by decide), eat?_cons,
      skipBlanks_append after.blank (stops_isBlank_of_begins hbegins), hbegins, hmore, Items.trees,
      pure, Except.pure, Nat.add_assoc]

end

/-! Whole texts. -/

theorem parse_text (d : Bracketed) : parse (String.ofList d.text) = .ok d.tree := by
  have hclose : Resumes closers (d.closed.text ++ [']']) := ⟨d.closed, ']', [], by decide, rfl⟩
  have hbegins := stops_isBlank_of_begins (d.inside.begins (d.closed.text ++ [']']))
  have hfuel : 3 * d.inside.text.length ≤ fuelFor d.text := by
    simp only [fuelFor, Bracketed.text, List.length_append, List.length_cons]
    omega
  have hread (j : Nat) := expression_text d.inside _ j hclose hfuel
  have hopen : eat? '[' ⟨0, d.text⟩ =
      some ⟨0 + '['.utf8Size, d.opened.text ++ (d.inside.text ++ (d.closed.text ++ [']']))⟩ :=
    eat?_cons '[' 0 _
  rw [parse, String.toList_ofList]
  simp [hopen, skipBlanks_append d.opened.blank hbegins, hread, bind, Except.bind,
    skipBlanks_blanks d.closed (x := ']') (by decide), eat?_cons, pure, Except.pure, Bracketed.tree]

/-- What is accepted is what has a derivation, and the tree is that of any derivation. -/
theorem parse_eq_ok_iff {s : String} {e : Expr} :
    parse s = .ok e ↔ ∃ d : Bracketed, d.text = s.toList ∧ d.tree = e := by
  constructor
  · intro h
    have hread := parse_reading s
    rw [h] at hread
    exact hread
  · rintro ⟨d, htext, rfl⟩
    rw [← parse_text d, htext, String.ofList_toList]

def Grammar.sampleCall : Bracketed :=
  let none : Blanks := ⟨[], rfl⟩
  let f : CallHead := ⟨Option.none, ⟨'f', [], rfl, rfl⟩, none⟩
  let quoted : Expression := .mk (.string ['i', 't', '\'', 's']) .nil
  ⟨none, .mk (.call f ⟨[' '], rfl⟩ (.some (.last quoted) none))
    (.property none none ⟨'x', [], rfl, rfl⟩ .nil), none⟩

end ResourceTemplate.Expr
