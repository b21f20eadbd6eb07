import ResourceTemplate.Proofs.Expr.Scanning

namespace ResourceTemplate.Expr

open Cursor Grammar
open Text (byteLength)

/-- The end of a call, whose derivation may depend on the blanks before its parenthesis. -/
theorem closing_reading {c last : Cursor} {v : List Char} {ns : Option String} {name : String}
    {args : List Expr} (h : Reads c v last)
    (hd : ∀ b : Blanks, ∃ d : Primary, d.text = v ++ (b.text ++ [')']) ∧
      d.tree c.offset = .call ns name args ⟨c.offset, c.offset + byteLength d.text⟩) :
    Reading c (fun e w => ∃ d : Primary, d.text = w ∧ d.tree c.offset = e)
      (match last.skipBlanks.eat? ')' with
      | none => last.skipBlanks.fail .closingParenthesis
      | some after => pure (.call ns name args ⟨c.offset, after.offset⟩, after)) := by
  obtain ⟨b, hb⟩ := exists_reads_skipBlanks last
  split
  next => exact .error (h.trans hb)
  next after hclose =>
    have hread := h.trans (hb.trans (eat?_eq_some hclose))
    obtain ⟨d, htext, htree⟩ := hd b
    exact .ok hread ⟨d, htext, by rw [htree, hread.offset, htext]⟩

mutual

theorem expression_reading : ∀ (fuel : Nat) (c : Cursor),
    Reading c (fun e w => ∃ d : Expression, d.text = w ∧ d.tree c.offset = e) (expression fuel c)
  | 0, c => .error (.refl c)
  | fuel + 1, c => by
    rw [expression]
    refine .bind (.refl c) (primary_reading fuel c) ?_
    rintro _ _ after hread ⟨d, rfl, rfl⟩
    refine .after hread (accessors_reading fuel c.offset (d.tree c.offset) after) ?_
    rintro _ _ ⟨ds, rfl, rfl⟩
    exact ⟨⟨d, ds⟩, rfl, by rw [Expression.tree, hread.offset, List.nil_append]⟩

theorem accessors_reading : ∀ (fuel start : Nat) (target : Expr) (c : Cursor),
    Reading c (fun e w => ∃ d : Accessors, d.text = w ∧ d.tree start c.offset target = e)
      (accessors fuel start target c)
  | 0, _, _, c => .error (.refl c)
  | fuel + 1, start, target, c => by
    obtain ⟨b, hb⟩ := exists_reads_skipBlanks c
    rw [accessors]
    dsimp only
    split
    next afterDot hdot =>
      obtain ⟨b', hb'⟩ := exists_reads_skipBlanks afterDot
      have hname := hb.trans ((eat?_eq_some hdot).trans hb')
      split
      next => exact .error hname
      next name after hsome =>
        obtain ⟨n, hn, rfl⟩ := ident?_eq_some hsome
        have hread : Reads c (b.text ++ '.' :: (b'.text ++ n.text)) after :=
          hb.trans ((eat?_eq_some hdot).trans (hb'.trans hn))
        refine .after hread (accessors_reading fuel start _ after) ?_
        rintro _ _ ⟨more, rfl, rfl⟩
        exact ⟨.property b b' n more, by simp [Accessors.text], by
          rw [Accessors.tree, hread.offset]⟩
    next =>
      split
      next => exact .ok (.refl c) ⟨.nil, rfl, rfl⟩
      next afterOpen hopen =>
        obtain ⟨b', hb'⟩ := exists_reads_skipBlanks afterOpen
        have hinner : Reads c (b.text ++ '[' :: b'.text) afterOpen.skipBlanks :=
          hb.trans ((eat?_eq_some hopen).trans hb')
        refine .bind hinner (expression_reading fuel afterOpen.skipBlanks) ?_
        rintro _ _ afterIndex hindex ⟨e, rfl, rfl⟩
        obtain ⟨b'', hb''⟩ := exists_reads_skipBlanks afterIndex
        dsimp only
        split
        next => exact .error (hindex.trans hb'')
        next after hclose =>
          have hread := hindex.trans (hb''.trans (eat?_eq_some hclose))
          refine .after hread (accessors_reading fuel start _ after) ?_
          rintro _ _ ⟨more, rfl, rfl⟩
          refine ⟨.index b b' e b'' more, by simp [Accessors.text], ?_⟩
          rw [Accessors.tree, hread.offset, hinner.offset]
          simp [Nat.add_assoc]

theorem primary_reading : ∀ (fuel : Nat) (c : Cursor),
    Reading c (fun e w => ∃ d : Primary, d.text = w ∧ d.tree c.offset = e) (primary fuel c)
  | 0, c => .error (.refl c)
  | fuel + 1, c => by
    rw [primary]
    split
    next => exact .error (.refl c)
    next hbegins =>
      split
      next afterQuote hquote =>
        have hopen := eat?_eq_some hquote
        refine .bind hopen (quoted_reading _ [] _ _ afterQuote [] (.refl _) rfl) ?_
        rintro text _ after hread ⟨content, rfl, rfl⟩
        exact .ok hread ⟨.string content, rfl, rfl⟩
      next hquote =>
        split
        next hident =>
          obtain ⟨n, hn, htree⟩ := integer_reads (by simpa using hbegins) hquote hident
          exact .ok hn ⟨.integer n, rfl, htree⟩
        next word afterWord hword =>
          split
          next =>
            obtain ⟨n, hn, rfl⟩ := ident?_eq_some hword
            split
            next e hkeyword =>
              obtain ⟨k, hk, rfl⟩ := keyword?_eq_some hkeyword
              exact .ok hn ⟨.keyword ⟨k, n.text, hk⟩, rfl, rfl⟩
            next => exact .error (.refl c)
          next ns name atOpen hcall =>
            obtain ⟨head, r, hhead, hopen, rfl, rfl⟩ := callHead?_eq_some hword hcall
            have hparen : Reads atOpen ['('] (atOpen.past ['('] (atOpen.rest.drop 1)) :=
              ⟨by rw [hopen]; rfl, rfl⟩
            obtain ⟨b, hb⟩ := exists_reads_skipBlanks (atOpen.past ['('] (atOpen.rest.drop 1))
            have hargs : Reads c (head.text ++ '(' :: b.text) _ := hhead.trans (hparen.trans hb)
            dsimp only
            generalize (atOpen.past ['('] (atOpen.rest.drop 1)).skipBlanks = atArgs at hargs ⊢
            split
            next =>
              refine .bind hargs (arguments_reading fuel _) ?_
              rintro _ _ last hread ⟨items, rfl, rfl⟩
              refine closing_reading hread fun b' => ⟨.call head b (.some items b'), ?_, ?_⟩
              · simp [Primary.text, Arguments.text]
              · rw [hargs.offset]
                rfl
            next =>
              refine closing_reading hargs fun b' => ⟨.call head ⟨b.text ++ b'.text, by
                rw [List.all_append, b.blank, b'.blank, Bool.and_self]⟩ .none, ?_, rfl⟩
              simp [Primary.text, Arguments.text]

theorem arguments_reading : ∀ (fuel : Nat) (c : Cursor),
    Reading c (fun es w => ∃ d : Items, d.text = w ∧ d.trees c.offset = es) (arguments fuel c)
  | 0, c => .error (.refl c)
  | fuel + 1, c => by
    rw [arguments]
    refine .bind (.refl c) (expression_reading fuel c) ?_
    rintro _ _ after hread ⟨e, rfl, rfl⟩
    dsimp only
    split
    next => exact .ok hread ⟨.last e, rfl, rfl⟩
    next afterComma hcomma =>
      obtain ⟨b, hb⟩ := exists_reads_skipBlanks after
      obtain ⟨b', hb'⟩ := exists_reads_skipBlanks afterComma
      split
      next =>
        have hnext := hread.trans (hb.trans ((eat?_eq_some hcomma).trans hb'))
        refine .bind hnext (arguments_reading fuel afterComma.skipBlanks) ?_
        rintro _ _ last hlast ⟨more, rfl, rfl⟩
        refine .ok hlast ⟨.cons e b b' more, by simp [Items.text], ?_⟩
        rw [Items.trees, hnext.offset]
        rfl
      next => exact .ok hread ⟨.last e, rfl, rfl⟩

end

/-- A text that is accepted has a derivation; an error stands between two characters of the text. -/
theorem parse_reading (s : String) :
    match parse s with
    | .ok e => ∃ d : Bracketed, d.text = s.toList ∧ d.tree = e
    | .error err => ∃ w c, Reads ⟨0, s.toList⟩ w c ∧ err.position = c.offset := by
  unfold parse
  cases hopen : eat? '[' ⟨0, s.toList⟩ with
  | none =>
    simp only [hopen]
    exact ⟨[], _, .refl _, rfl⟩
  | some afterOpen =>
    obtain ⟨b, hb⟩ := exists_reads_skipBlanks afterOpen
    have hinner : Reads ⟨0, s.toList⟩ ('[' :: b.text) _ := (eat?_eq_some hopen).trans hb
    have hexpr := expression_reading (fuelFor s.toList) afterOpen.skipBlanks
    cases hresult : expression (fuelFor s.toList) afterOpen.skipBlanks with
    | error err =>
      rw [hresult] at hexpr
      obtain ⟨w, c, hw, hpos⟩ := hexpr
      simp only [hopen, hresult, bind, Except.bind]
      exact ⟨_, c, hinner.trans hw, hpos⟩
    | ok result =>
      obtain ⟨e, afterExpr⟩ := result
      rw [hresult] at hexpr
      obtain ⟨_, hread, d, rfl, rfl⟩ := hexpr
      obtain ⟨b', hb'⟩ := exists_reads_skipBlanks afterExpr
      have hatClose := (hinner.trans hread).trans hb'
      simp only [hopen, hresult, bind, Except.bind]
      cases hclose : eat? ']' afterExpr.skipBlanks with
      | none => exact ⟨_, _, hatClose, rfl⟩
      | some after =>
        have hall := hatClose.trans (eat?_eq_some hclose)
        by_cases hend : after.rest = []
        · simp only [hend, List.isEmpty_nil, if_true, pure, Except.pure]
          have htext : s.toList = _ := hall.rest
          refine ⟨⟨b, d, b'⟩, ?_, by rw [Bracketed.tree, hinner.offset, Nat.zero_add]⟩
          simp [htext, hend, Bracketed.text]
        · simp only [List.isEmpty_iff, hend, if_false]
          exact ⟨_, after, hall, rfl⟩

end ResourceTemplate.Expr
