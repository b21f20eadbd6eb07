import ResourceTemplate.Proofs.Expr.Acceptance

namespace ResourceTemplate.Expr

open Cursor Grammar
open Text (byteLength)

/-- A longest run of a class is the same in both divisions of a text. -/
theorem run_unique {p : Char → Bool} {v v' r r' : List Char} (hv : v.all p = true)
    (hv' : v'.all p = true) (hr : Stops p r) (hr' : Stops p r') (h : v ++ r = v' ++ r') :
    v = v' ∧ r = r' := by
  have hrun := run_append hv hr 0
  rw [h, run_append hv' hr' 0, Prod.mk.injEq] at hrun
  obtain rfl := hrun.1
  exact ⟨rfl, List.append_cancel_left h⟩

theorem blanks_unique {b b' : Blanks} {r r' : List Char} (hr : Stops isBlank r)
    (hr' : Stops isBlank r') (h : b.text ++ r = b'.text ++ r') : b = b' ∧ r = r' := by
  obtain ⟨hb, hrest⟩ := run_unique b.blank b'.blank hr hr' h
  exact ⟨Blanks.ext hb, hrest⟩

theorem mark_unique {b b' : Blanks} {x x' : Char} {r r' : List Char} (hx : isBlank x = false)
    (hx' : isBlank x' = false) (h : b.text ++ x :: r = b'.text ++ x' :: r') :
    b = b' ∧ x = x' ∧ r = r' := by
  obtain ⟨hb, hrest⟩ := blanks_unique (stops_cons.mpr hx) (stops_cons.mpr hx') h
  exact ⟨hb, List.cons.inj hrest⟩

/-- A text that goes on with a mark does not go on with another character. -/
theorem Resumes.ne {ms r w : List Char} (hr : Resumes ms r) (hms : avoids isBlank ms = true)
    (b : Blanks) {x : Char} (hx : isBlank x = false) (hnot : x ∉ ms) : r ≠ b.text ++ x :: w := by
  obtain ⟨b', y, r', hy, rfl⟩ := hr
  intro h
  obtain ⟨-, rfl, -⟩ := mark_unique (eq_false_of_avoids hms hy) hx h
  exact hnot hy

theorem Grammar.Identifier.eq_of_text {n n' : Identifier} (h : n.text = n'.text) : n = n' :=
  Identifier.ext (List.cons.inj h).1 (List.cons.inj h).2

theorem ident_unique {n n' : Identifier} {r r' : List Char} (hr : Stops isIdentRest r)
    (hr' : Stops isIdentRest r') (h : n.text ++ r = n'.text ++ r') : n = n' ∧ r = r' := by
  have hword (n : Identifier) : n.text.all isIdentRest = true := by
    rw [Identifier.text, List.all_cons, isIdentRest_of_isIdentStart n.starts, n.continues,
      Bool.and_self]
  obtain ⟨hn, hrest⟩ := run_unique (hword n) (hword n') hr hr' h
  exact ⟨Identifier.eq_of_text hn, hrest⟩

theorem Grammar.Integer.eq_of_text {n n' : Grammar.Integer} (h : n.text = n'.text) : n = n' := by
  obtain ⟨negative, x, more, hx, hmore⟩ := n
  obtain ⟨negative', x', more', hx', hmore'⟩ := n'
  have hminus : isDigit '-' = false := by decide
  cases negative <;> cases negative' <;> simp [Integer.text, Integer.sign] at h ⊢
  · exact h
  · rw [h.1, hminus] at hx
    cases hx
  · rw [← h.1, hminus] at hx'
    cases hx'
  · exact h

theorem Grammar.Identifier.eq_of_name {n n' : Identifier} (h : n.name = n'.name) : n = n' :=
  Identifier.eq_of_text (by simpa [Identifier.name] using congrArg String.toList h)

/-- Primary expressions in two divisions of a text are read as one. -/
theorem primary_tree_unique (d d' : Primary) {r r' : List Char} (hr : Follows r) (hr' : Follows r')
    (h : d.text ++ r = d'.text ++ r') : d.tree 0 = d'.tree 0 ∧ d.text = d'.text ∧ r = r' := by
  have hread := primary_text d (3 * (d.text ++ r).length) 0 hr (by
    rw [List.length_append]
    omega)
  have hread' := primary_text d' (3 * (d'.text ++ r').length) 0 hr' (by
    rw [List.length_append]
    omega)
  rw [h, hread'] at hread
  simp only [Except.ok.injEq, Prod.mk.injEq, Cursor.mk.injEq] at hread
  obtain ⟨htree, -, rfl⟩ := hread
  exact ⟨htree.symm, List.append_cancel_right h, rfl⟩

theorem keyword_unique {k k' : Keyword} (htree : k.constant.tree = k'.constant.tree)
    (htext : k.text = k'.text) : k = k' := by
  refine Keyword.ext ?_ htext
  revert htree
  cases k.constant <;> cases k'.constant <;> simp [Constant.tree]

theorem callHead_unique {head head' : CallHead} {w w' : List Char}
    (hns : head.ns.map Identifier.name = head'.ns.map Identifier.name)
    (hname : head.name.name = head'.name.name)
    (h : head.text ++ '(' :: w = head'.text ++ '(' :: w') : head = head' ∧ w = w' := by
  obtain ⟨ns, name, before⟩ := head
  obtain ⟨ns', name', before'⟩ := head'
  obtain rfl := Identifier.eq_of_name hname
  obtain rfl : ns = ns' := Option.map_injective (fun _ _ => Identifier.eq_of_name) hns
  simp only [CallHead.text, CallHead.nsText, List.append_assoc, List.append_cancel_left_eq] at h
  obtain ⟨rfl, -, rfl⟩ := mark_unique rfl rfl h
  exact ⟨rfl, rfl⟩

theorem nil_unique (v : Accessors) {r r' : List Char} (hr : Resumes closers r)
    (h : r = v.text ++ r') : v = .nil := by
  cases v with
  | nil => rfl
  | property before inside name more =>
    rw [Accessors.text, List.append_assoc] at h
    exact absurd h (hr.ne rfl before rfl (by decide))
  | index before opened e closed more =>
    rw [Accessors.text, List.append_assoc] at h
    exact absurd h (hr.ne rfl before rfl (by decide))

theorem Grammar.Arguments.stops (d : Arguments) (r : List Char) : Stops isBlank (d.text ++ r) := by
  cases d with
  | none => exact stops_cons.mpr rfl
  | some items closed =>
    rw [Arguments.text, List.append_assoc]
    exact stops_isBlank_of_begins (items.begins _)

theorem Grammar.Items.text_ne_close (items : Items) (closed : Blanks) :
    Arguments.none.text ≠ (Arguments.some items closed).text := by
  intro h
  have hbegins := items.begins (closed.text ++ [')'])
  rw [Arguments.text, Arguments.text] at h
  rw [← h] at hbegins
  cases hbegins

theorem comma_resumes (b : Blanks) (w : List Char) : Resumes closers (b.text ++ ',' :: w) :=
  ⟨b, ',', w, by decide, rfl⟩

mutual

theorem expression_unique : ∀ (d d' : Expression) {r r' : List Char}, Resumes closers r →
    Resumes closers r' → d.text ++ r = d'.text ++ r' → d = d' ∧ r = r'
  | .mk p v, .mk p' v', r, r', hr, hr', h => by
    simp only [Expression.text, List.append_assoc] at h
    obtain ⟨rfl, hv⟩ := primary_unique p p' (v.follows hr) (v'.follows hr') h
    obtain ⟨rfl, hrest⟩ := accessors_unique v v' hr hr' hv
    exact ⟨rfl, hrest⟩

theorem accessors_unique : ∀ (d d' : Accessors) {r r' : List Char}, Resumes closers r →
    Resumes closers r' → d.text ++ r = d'.text ++ r' → d = d' ∧ r = r'
  | .nil, d', r, r', hr, hr', h => by
    obtain rfl := nil_unique d' hr h
    exact ⟨rfl, h⟩
  | d, .nil, r, r', hr, hr', h => by
    obtain rfl := nil_unique d hr' h.symm
    exact ⟨rfl, h⟩
  | .property before inside name more, .property before' inside' name' more', r, r', hr, hr',
    h => by
    have hstops (v : Accessors) {r : List Char} (hr : Resumes closers r) :
        Stops isIdentRest (v.text ++ r) :=
      (v.resumes hr).stops rfl
    have hbegins (n : Identifier) (w : List Char) : Stops isBlank (n.text ++ w) :=
      stops_isBlank_of_begins (beginsPrimary_ident n w)
    simp only [Accessors.text, List.append_assoc, List.cons_append] at h
    obtain ⟨rfl, -, hinside⟩ := mark_unique rfl rfl h
    obtain ⟨rfl, hname⟩ := blanks_unique (hbegins _ _) (hbegins _ _) hinside
    obtain ⟨rfl, hmore⟩ := ident_unique (hstops more hr) (hstops more' hr') hname
    obtain ⟨rfl, hrest⟩ := accessors_unique more more' hr hr' hmore
    exact ⟨rfl, hrest⟩
  | .index before opened e closed more, .index before' opened' e' closed' more', r, r', hr, hr',
    h => by
    have hbegins (e : Expression) (w : List Char) : Stops isBlank (e.text ++ w) :=
      stops_isBlank_of_begins (e.begins w)
    have hclose (b : Blanks) (w : List Char) : Resumes closers (b.text ++ ']' :: w) :=
      ⟨b, ']', w, by decide, rfl⟩
    simp only [Accessors.text, List.append_assoc, List.cons_append] at h
    obtain ⟨rfl, -, hopened⟩ := mark_unique rfl rfl h
    obtain ⟨rfl, hindex⟩ := blanks_unique (hbegins _ _) (hbegins _ _) hopened
    obtain ⟨rfl, hclosed⟩ := expression_unique e e' (hclose _ _) (hclose _ _) hindex
    obtain ⟨rfl, -, hmore⟩ := mark_unique rfl rfl hclosed
    obtain ⟨rfl, hrest⟩ := accessors_unique more more' hr hr' hmore
    exact ⟨rfl, hrest⟩
  | .property .., .index .., r, r', hr, hr', h => by
    simp only [Accessors.text, List.append_assoc, List.cons_append] at h
    cases (mark_unique rfl rfl h).2.1
  | .index .., .property .., r, r', hr, hr', h => by
    simp only [Accessors.text, List.append_assoc, List.cons_append] at h
    cases (mark_unique rfl rfl h).2.1

theorem primary_unique : ∀ (d d' : Primary) {r r' : List Char}, Follows r → Follows r' →
    d.text ++ r = d'.text ++ r' → d = d' ∧ r = r'
  -- Both words are read alike, and the tree that is read tells which rule it is of.
  | .string content, d', r, r', hr, hr', h => by
    obtain ⟨htree, -, rfl⟩ := primary_tree_unique (.string content) d' hr hr' h
    refine ⟨?_, rfl⟩
    cases d' with
    | string content' => simpa [Primary.tree, String.ofList_inj] using htree
    | keyword word' =>
      cases hk : word'.constant <;> simp [Primary.tree, Constant.tree, hk] at htree
    | _ => simp [Primary.tree] at htree
  | .integer n, d', r, r', hr, hr', h => by
    obtain ⟨htree, htext, rfl⟩ := primary_tree_unique (.integer n) d' hr hr' h
    refine ⟨?_, rfl⟩
    cases d' with
    | integer n' => rw [Grammar.Integer.eq_of_text htext]
    | keyword word' =>
      cases hk : word'.constant <;> simp [Primary.tree, Constant.tree, hk] at htree
    | _ => simp [Primary.tree] at htree
  | .keyword word, d', r, r', hr, hr', h => by
    obtain ⟨htree, htext, rfl⟩ := primary_tree_unique (.keyword word) d' hr hr' h
    refine ⟨?_, rfl⟩
    cases d' with
    | keyword word' => rw [keyword_unique htree htext]
    | _ => cases hk : word.constant <;> simp [Primary.tree, Constant.tree, hk] at htree
  | .call head opened args, d', r, r', hr, hr', h => by
    obtain ⟨htree, htext, rfl⟩ := primary_tree_unique (.call head opened args) d' hr hr' h
    refine ⟨?_, rfl⟩
    cases d' with
    | call head' opened' args' =>
      simp only [Primary.tree, call.injEq] at htree
      obtain ⟨rfl, hopened⟩ := callHead_unique htree.1 htree.2.1 htext
      have hstops (args : Arguments) : Stops isBlank args.text := by
        simpa using args.stops []
      obtain ⟨rfl, hargs⟩ := blanks_unique (hstops args) (hstops args') hopened
      rw [arguments_unique args args' hargs]
    | keyword word' =>
      cases hk : word'.constant <;> simp [Primary.tree, Constant.tree, hk] at htree
    | _ => simp [Primary.tree] at htree

theorem arguments_unique : ∀ (d d' : Arguments), d.text = d'.text → d = d'
  | .none, .none, _ => rfl
  | .none, .some items closed, h => absurd h (items.text_ne_close closed)
  | .some items closed, .none, h => absurd h.symm (items.text_ne_close closed)
  | .some items closed, .some items' closed', h => by
    have hclose (b : Blanks) : Resumes [')'] (b.text ++ [')']) := ⟨b, ')', [], by simp, rfl⟩
    obtain ⟨rfl, hclosed⟩ := items_unique items items' (hclose closed) (hclose closed') h
    obtain ⟨rfl, -⟩ := mark_unique rfl rfl hclosed
    rfl

theorem items_unique : ∀ (d d' : Items) {r r' : List Char}, Resumes [')'] r → Resumes [')'] r' →
    d.text ++ r = d'.text ++ r' → d = d' ∧ r = r'
  | .last e, .last e', r, r', hr, hr', h => by
    obtain ⟨rfl, hrest⟩ := expression_unique e e' (hr.mono (by decide)) (hr'.mono (by decide)) h
    exact ⟨rfl, hrest⟩
  | .last e, .cons e' before after more, r, r', hr, hr', h => by
    simp only [Items.text, List.append_assoc, List.cons_append] at h
    have hrest := (expression_unique e e' (hr.mono (by decide)) (comma_resumes _ _) h).2
    exact absurd hrest (hr.ne rfl before rfl (by decide))
  | .cons e before after more, .last e', r, r', hr, hr', h => by
    simp only [Items.text, List.append_assoc, List.cons_append] at h
    have hrest := (expression_unique e e' (comma_resumes _ _) (hr'.mono (by decide)) h).2
    exact absurd hrest.symm (hr'.ne rfl before rfl (by decide))
  | .cons e before after more, .cons e' before' after' more', r, r', hr, hr', h => by
    have hbegins (items : Items) (w : List Char) : Stops isBlank (items.text ++ w) :=
      stops_isBlank_of_begins (items.begins w)
    simp only [Items.text, List.append_assoc, List.cons_append] at h
    obtain ⟨rfl, hbefore⟩ := expression_unique e e' (comma_resumes _ _) (comma_resumes _ _) h
    obtain ⟨rfl, -, hafter⟩ := mark_unique rfl rfl hbefore
    obtain ⟨rfl, hmore⟩ := blanks_unique (hbegins _ _) (hbegins _ _) hafter
    obtain ⟨rfl, hrest⟩ := items_unique more more' hr hr' hmore
    exact ⟨rfl, hrest⟩

end

theorem Grammar.Bracketed.eq_of_text {d d' : Bracketed} (h : d.text = d'.text) : d = d' := by
  obtain ⟨opened, inside, closed⟩ := d
  obtain ⟨opened', inside', closed'⟩ := d'
  have hbegins (e : Expression) (w : List Char) : Stops isBlank (e.text ++ w) :=
    stops_isBlank_of_begins (e.begins w)
  have hclose (b : Blanks) : Resumes closers (b.text ++ [']']) := ⟨b, ']', [], by decide, rfl⟩
  obtain ⟨rfl, hinside⟩ := blanks_unique (hbegins _ _) (hbegins _ _) (List.cons.inj h).2
  obtain ⟨rfl, hclosed⟩ := expression_unique inside inside' (hclose _) (hclose _) hinside
  obtain ⟨rfl, -⟩ := mark_unique rfl rfl hclosed
  rfl

/-- What is evaluated: a text of three bytes or more in brackets that is not opened twice. -/
theorem isExpression_iff {s : String} : isExpression s = true ↔
    3 ≤ byteLength s.toList ∧ ['['] <+: s.toList ∧ ¬ ['[', '['] <+: s.toList ∧
      [']'] <:+ s.toList := by
  unfold isExpression
  split
  next rest hs =>
    have htwice : ['[', '['] <+: '[' :: rest ↔ rest.head? = some '[' := by
      cases rest <;> simp [eq_comm]
    have hlast : [']'] <:+ '[' :: rest ↔ rest.getLast? = some ']' := by
      have hsuffix : [']'] <:+ '[' :: rest ↔ ('[' :: rest).getLast? = some ']' := by
        rw [List.getLast?_eq_some_iff]
        exact exists_congr fun _ => eq_comm
      rw [hsuffix]
      cases rest <;> simp
    simp [hs, htwice, hlast, and_assoc]
  next hs =>
    have hopened : ¬ ['['] <+: s.toList := by
      rintro ⟨rest, h⟩
      exact hs rest h.symm
    simp [hopened]

theorem isExpression_eq_false {s : String} (h : s.toList.head? ≠ some '[') : isExpression s = false := by
  rw [← Bool.not_eq_true, isExpression_iff]
  rintro ⟨-, ⟨rest, hs⟩, -⟩
  rw [← hs] at h
  exact h rfl

theorem templateString_of_isExpression {s : String} (h : isExpression s = true) :
    TemplateString.parse s = (parse s).map .expression := by
  rw [TemplateString.parse, if_pos h]

theorem templateString_of_not_isExpression {s : String} (h : isExpression s = false) :
    ∃ t : String, TemplateString.parse s = .ok (.literal t) ∧
      if ['[', '['] <+: s.toList then s.toList = '[' :: t.toList else t = s := by
  rw [TemplateString.parse, if_neg (by simp [h])]
  split
  next rest hs =>
    refine ⟨_, rfl, ?_⟩
    rw [if_pos ⟨rest, hs.symm⟩, hs, String.toList_ofList]
  next hs =>
    refine ⟨s, rfl, ?_⟩
    rw [if_neg]
    rintro ⟨rest, hrest⟩
    exact hs rest hrest.symm

/-- A text is accepted exactly where it has a derivation, with the tree of the derivation, and it has
no other. A string of a template is read where it is an expression; else it is a literal, which of
two brackets at its start keeps one. -/
theorem parse_exact (s : String) :
    (∀ e, parse s = .ok e ↔ ∃ d : Bracketed, d.text = s.toList ∧ d.tree = e) ∧
    (∀ d d' : Bracketed, d.text = s.toList → d'.text = s.toList → d = d') ∧
    (isExpression s = true ↔ 3 ≤ byteLength s.toList ∧ ['['] <+: s.toList ∧
      ¬ ['[', '['] <+: s.toList ∧ [']'] <:+ s.toList) ∧
    (isExpression s = true → TemplateString.parse s = (parse s).map .expression) ∧
    (isExpression s = false → ∃ t : String, TemplateString.parse s = .ok (.literal t) ∧
      if ['[', '['] <+: s.toList then s.toList = '[' :: t.toList else t = s) := by
  refine ⟨fun _ => parse_eq_ok_iff, ?_, isExpression_iff, templateString_of_isExpression,
    templateString_of_not_isExpression⟩
  intro d d' h h'
  exact Bracketed.eq_of_text (h.trans h'.symm)

theorem parse_exact_call :
    parse "[f( 'it''s').x]" =
      .ok (.property (.call none "f" [.str "it's"] ⟨1, 12⟩) "x" ⟨1, 14⟩) :=
  ((parse_exact _).1 _).mpr ⟨Grammar.sampleCall, by decide, rfl⟩

end ResourceTemplate.Expr
