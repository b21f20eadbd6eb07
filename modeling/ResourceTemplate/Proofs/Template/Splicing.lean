import ResourceTemplate.Proofs.Deployment.Remarks
import ResourceTemplate.Proofs.Expr.Unambiguity
import ResourceTemplate.Proofs.Outcome
import ResourceTemplate.Proofs.Template.Joining
import ResourceTemplate.Proofs.Text.Pieces

namespace ResourceTemplate

/-! ### Strings as operands of a call -/

namespace Blank

theorem isBlank_of_cursor {c : Char} (h : Expr.Cursor.isBlank c = true) : isBlank c = true := by
  have hall : Expr.Cursor.blanks.all isBlank = true := by decide
  exact List.all_eq_true.mp hall c (Expr.Cursor.mem_blanks_of_isBlank h)

theorem not_isBlank_of_printable {c : Char} (hl : 33 ≤ c.toNat) (hu : c.toNat ≤ 126) : isBlank c = false := by
  simp only [isBlank, Bool.or_eq_false_iff, Bool.and_eq_false_iff, decide_eq_false_iff_not, beq_eq_false_iff_ne]
  omega

theorem not_isBlank_of_isIdentRest {c : Char} (h : Expr.isIdentRest c = true) : isBlank c = false := by
  have within {a b : Char} (hl : a ≤ c) (hu : c ≤ b) (ha : 33 ≤ a.toNat) (hb : b.toNat ≤ 126) : isBlank c = false :=
    not_isBlank_of_printable (ha.trans hl) (Nat.le_trans hu hb)
  simp only [Expr.isIdentRest, Expr.isIdentStart, Expr.isDigit, Bool.or_eq_true, Bool.and_eq_true, decide_eq_true_eq,
    beq_iff_eq] at h
  rcases h with (((⟨hl, hu⟩ | ⟨hl, hu⟩) | rfl) | rfl) | ⟨hl, hu⟩
  · exact within hl hu (by decide) (by decide)
  · exact within hl hu (by decide) (by decide)
  · rfl
  · rfl
  · exact within hl hu (by decide) (by decide)

/-- White space around a text that neither begins nor ends with it is taken away. -/
theorem trim_surrounded {p w q : List Char} (hp : ∀ c ∈ p, isBlank c = true) (hq : ∀ c ∈ q, isBlank c = true)
    (hstarts : Expr.Stops isBlank (w ++ q)) (hends : Expr.Stops isBlank w.reverse) :
    trimRight (trimLeft (p ++ (w ++ q))) = w := by
  have hself (l : List Char) (hl : Expr.Stops isBlank l) : l.dropWhile isBlank = l := by
    cases l with
    | nil => rfl
    | cons c l => exact List.dropWhile_cons_of_neg (by simpa using hl)
  have hleft : trimLeft (p ++ (w ++ q)) = w ++ q := by
    rw [trimLeft, List.dropWhile_append_of_pos hp, hself _ hstarts]
  rw [hleft, trimRight, List.reverse_append, List.dropWhile_append_of_pos (by simpa using hq), hself _ hends,
    List.reverse_reverse]

end Blank

namespace Expr

/-! What an expression begins and ends with. -/

theorem stops_reverse {p : Char → Bool} (w : List Char) {c : Char} (hc : p c = false) : Stops p (w ++ [c]).reverse := by
  rw [List.reverse_append, List.reverse_singleton]
  exact stops_cons.mpr hc

theorem stops_reverse_append {p : Char → Bool} (w : List Char) {u : List Char} (hne : u ≠ [])
    (hu : ∀ c ∈ u, p c = false) : Stops p (w ++ u).reverse := by
  obtain ⟨before, c, rfl⟩ := (List.eq_nil_or_concat' u).resolve_left hne
  rw [← List.append_assoc]
  exact stops_reverse _ (hu c (by simp))

theorem Grammar.Identifier.ends (n : Identifier) (w : List Char) : Stops Blank.isBlank (w ++ n.text).reverse := by
  refine stops_reverse_append w (List.cons_ne_nil _ _) fun c hc => Blank.not_isBlank_of_isIdentRest ?_
  rcases List.mem_cons.mp hc with rfl | hc
  · rw [isIdentRest, n.starts, Bool.true_or]
  · exact List.all_eq_true.mp n.continues c hc

theorem Grammar.Integer.ends (n : Grammar.Integer) : Stops Blank.isBlank n.text.reverse := by
  refine stops_reverse_append n.sign (List.cons_ne_nil _ _) fun c hc => Blank.not_isBlank_of_isIdentRest ?_
  rcases List.mem_cons.mp hc with rfl | hc
  · rw [isIdentRest, n.digit, Bool.or_true]
  · rw [isIdentRest, List.all_eq_true.mp n.digits c hc, Bool.or_true]

theorem Grammar.Primary.ends (d : Primary) : Stops Blank.isBlank d.text.reverse := by
  cases d with
  | string content => exact stops_reverse ('\'' :: escape content) rfl
  | integer n => exact n.ends
  | keyword k =>
    obtain ⟨n, hn⟩ := k.exists_identifier
    rw [Primary.text, ← hn]
    exact n.ends []
  | call head opened args =>
    -- a call ends with its parenthesis
    obtain ⟨inside, hinside⟩ : ∃ inside, args.text = inside ++ [')'] := by
      cases args with
      | none => exact ⟨[], rfl⟩
      | some items closed => exact ⟨items.text ++ closed.text, (List.append_assoc _ _ _).symm⟩
    have hlast := stops_reverse (p := Blank.isBlank) (head.text ++ '(' :: (opened.text ++ inside)) (c := ')') rfl
    simpa [Primary.text, hinside] using hlast

theorem Grammar.Accessors.ends : (v : Accessors) → {w : List Char} → Stops Blank.isBlank w.reverse →
    Stops Blank.isBlank (w ++ v.text).reverse
  | .nil, w, h => by simpa [Accessors.text] using h
  | .property before inside name more, w, _ => by
    have hmore := more.ends (name.ends (w ++ (before.text ++ '.' :: inside.text)))
    simpa [Accessors.text] using hmore
  | .index before opened e closed more, w, _ => by
    have hlast := stops_reverse (p := Blank.isBlank)
      (w ++ (before.text ++ '[' :: (opened.text ++ (e.text ++ closed.text)))) (c := ']') rfl
    simpa [Accessors.text] using more.ends hlast

theorem Grammar.Expression.ends (d : Expression) : Stops Blank.isBlank d.text.reverse := by
  obtain ⟨p, v⟩ := d
  exact v.ends p.ends

theorem stops_of_begins {r : List Char} (h : beginsPrimary r = true) : Stops Blank.isBlank r := by
  unfold beginsPrimary at h
  split at h
  · exact stops_cons.mpr (by decide)
  · rename_i c rest _
    simp only [Bool.or_eq_true, beq_iff_eq] at h
    rcases h with (rfl | hc) | hc
    · exact stops_cons.mpr (by decide)
    · exact stops_cons.mpr (Blank.not_isBlank_of_isIdentRest (by rw [isIdentRest, hc, Bool.or_true]))
    · exact stops_cons.mpr (Blank.not_isBlank_of_isIdentRest (by rw [isIdentRest, hc, Bool.true_or]))
  · cases h

theorem Grammar.Blanks.isBlank (b : Blanks) : ∀ c ∈ b.text, Blank.isBlank c = true := fun c hc =>
  Blank.isBlank_of_cursor (List.all_eq_true.mp b.blank c hc)

theorem replace_quote (cs : List Char) : Text.replace ['\''] ['\'', '\''] cs = Grammar.escape cs := by
  rw [Text.replace, Text.splitOn_single]
  induction cs with
  | nil => rfl
  | cons c cs ih =>
    obtain ⟨piece, pieces, hsplit⟩ := List.exists_cons_of_ne_nil (List.splitOn_ne_nil '\'' cs)
    rw [hsplit] at ih
    have hcons : List.splitOn '\'' (c :: cs) =
        if c == '\'' then [] :: piece :: pieces else (c :: piece) :: pieces := by
      rw [List.splitOn, List.splitOnP_cons_eq_if_modifyHead, ← List.splitOn, hsplit]
      rfl
    unfold Grammar.escape at ih ⊢
    rw [hcons, List.flatMap_cons, ← ih]
    by_cases hc : c = '\''
    · rw [if_pos (by simpa using hc), if_pos hc, List.intercalate_cons_cons]
      rfl
    · rw [if_neg (by simpa using hc), if_neg hc]
      cases pieces with
      | nil => simp
      | cons next pieces => simp [List.intercalate_cons_cons]

end Expr

namespace Template

theorem operand_bracketed {d : Expr.Grammar.Bracketed} {s : String} (htext : d.text = s.toList)
    (h : Expr.isExpression s = true) : operand s = d.inside.text := by
  have hbrackets : (s.toList.drop 1).dropLast = d.opened.text ++ (d.inside.text ++ d.closed.text) := by
    rw [← htext]
    simp [Expr.Grammar.Bracketed.text, ← List.append_assoc]
  unfold operand
  rw [if_pos h, hbrackets]
  exact Blank.trim_surrounded d.opened.isBlank d.closed.isBlank (Expr.stops_of_begins (d.inside.begins _)) d.inside.ends

theorem operand_literal {s : String} (h : Expr.isExpression s = false) :
    operand s = (Expr.Grammar.Primary.string (unescapeLiteral s.toList)).text := by
  unfold operand
  rw [if_neg (by simp [h]), Expr.replace_quote]
  rfl

end Template

/-! ### Joined strings -/

open Template

namespace Expr.Grammar

def concatCall (e f : Expression) : Bracketed :=
  let tight : Blanks := ⟨[], .refl true⟩
  let space : Blanks := ⟨[' '], .refl true⟩
  let concat : CallHead := ⟨none, ⟨'c', ['o', 'n', 'c', 'a', 't'], rfl, rfl⟩, tight⟩
  let slash : Expression := .mk (.string ['/']) .nil
  ⟨tight, .mk (.call concat tight (.some (.cons e tight space (.cons slash tight space (.last f))) tight)) .nil, tight⟩

theorem concatCall_text (e f : Expression) : (concatCall e f).text =
    "[concat(".toList ++ e.text ++ ", '/', ".toList ++ f.text ++ ")]".toList := by
  simp [concatCall, Bracketed.text, Expression.text, Primary.text, CallHead.text, CallHead.nsText, Identifier.text,
    Arguments.text, Items.text, Accessors.text, escape]

theorem concatCall_tree (e f : Expression) :
    ∃ i j span, (concatCall e f).tree = .call none "concat" [e.tree i, .str "/", f.tree j] span :=
  ⟨_, _, _, rfl⟩

end Expr.Grammar

namespace Template

variable {l r : String} (h : Expr.isExpression l = true ∨ Expr.isExpression r = true)
include h

theorem joinSegments_operands : (joinSegments l r).toList =
    "[concat(".toList ++ operand l ++ ", '/', ".toList ++ operand r ++ ")]".toList := by
  unfold joinSegments
  rw [if_neg (by rcases h with h | h <;> simp [h])]
  simp

theorem isExpression_joinSegments_operands : Expr.isExpression (joinSegments l r) = true := by
  have hopens : "[concat(".toList = '[' :: 'c' :: "oncat(".toList := rfl
  have hcloses : ")]".toList = [')'] ++ [']'] := rfl
  have hsizes : '['.utf8Size = 1 ∧ 'c'.utf8Size = 1 ∧ ']'.utf8Size = 1 := ⟨rfl, rfl, rfl⟩
  rw [Expr.isExpression_iff, joinSegments_operands h, hopens, hcloses]
  refine ⟨?_, by simp, by simp, (List.suffix_append _ _).trans (List.suffix_append _ _)⟩
  simp only [Text.byteLength_append, Text.byteLength_cons]
  omega

/-- What is joined of the texts of expressions is read as the call that has them as arguments. -/
theorem parse_joinSegments {e f : Expr.Grammar.Expression} (he : operand l = e.text) (hf : operand r = f.text) :
    TemplateString.parse (joinSegments l r) = .ok (.expression (Expr.Grammar.concatCall e f).tree) := by
  have htext : (Expr.Grammar.concatCall e f).text = (joinSegments l r).toList := by
    rw [joinSegments_operands h, Expr.Grammar.concatCall_text, he, hf]
  rw [Expr.templateString_of_isExpression (isExpression_joinSegments_operands h),
    Expr.parse_eq_ok_iff.mpr ⟨_, htext, rfl⟩]
  rfl

end Template

theorem Catalog.Collections.concat_segments (left right : String) :
    concat ⟨"concat", [.str left, .str "/", .str right]⟩ = .ok (.str (left ++ "/" ++ right)) := by
  change Except.ok (Json.str (String.ofList (left.toList ++ ("/".toList ++ (right.toList ++ []))))) = _
  simp [String.append_assoc]

namespace Host

variable {σ : Type} {h : Host σ} {R : σ → σ → Prop} {l r : String}

/-- Whether two joined strings give what they give in turn, with a slash in between, and leave what they leave, up to
the states that a host takes for the same. -/
def Joins (h : Host σ) (R : σ → σ → Prop) (l r : String) : Prop :=
  ∀ (left right : String) (s t u : σ), outcome (TemplateString.eval h l) s = (.ok (.str left), t) →
    outcome (TemplateString.eval h r) t = (.ok (.str right), u) →
    ∃ u', outcome (TemplateString.eval h (joinSegments l r)) s = (.ok (.str (left ++ "/" ++ right)), u') ∧ R u u'

namespace Overlooks

variable (ho : h.Overlooks R)
include ho

theorem eval_operand {v : Json} {s t : σ} (hl : outcome (TemplateString.eval h l) s = (.ok v, t)) :
    ∃ e : Expr.Grammar.Expression, operand l = e.text ∧
      ∀ i s', R s s' → ∃ t', outcome (Expr.eval h [] (e.tree i)) s' = (.ok v, t') ∧ R t t' := by
  cases hx : Expr.isExpression l with
  | false =>
    rw [TemplateString.outcome_eval_literal hx] at hl
    obtain ⟨hv, rfl⟩ := Prod.mk.inj hl
    refine ⟨.mk (.string (unescapeLiteral l.toList)) .nil, ?_, fun i s' hs => ⟨s', ?_, hs⟩⟩
    · rw [operand_literal hx, Expr.Grammar.Expression.text_mk_nil]
    · rw [Expr.Grammar.Expression.tree_mk_nil, ← hv]
      rfl
  | true =>
    rw [TemplateString.eval_eq, Expr.templateString_of_isExpression hx] at hl
    cases hp : Expr.parse l with
    | error e =>
      rw [hp] at hl
      cases hl
    | ok x =>
      rw [hp] at hl
      obtain ⟨d, htext, rfl⟩ := Expr.parse_eq_ok_iff.mp hp
      refine ⟨d.inside, operand_bracketed htext hx, fun i s' hs => ?_⟩
      -- at both places the tree is that at the start of a text, moved
      have hshift (k : Nat) : d.inside.tree k = (d.inside.tree 0).shift k := by
        rw [← Expr.tree_shift, Nat.zero_add]
      change outcome (Expr.eval h [] (d.inside.tree _)) s = _ at hl
      rw [hshift] at hl ⊢
      exact ho.eval_shift hl hs i

theorem joins (hx : Expr.isExpression l = true ∨ Expr.isExpression r = true) : h.Joins R l r := by
  intro left right s t u hl hr
  obtain ⟨e, he, hleft⟩ := ho.eval_operand hl
  obtain ⟨f, hf, hright⟩ := ho.eval_operand hr
  obtain ⟨i, j, span, htree⟩ := Expr.Grammar.concatCall_tree e f
  obtain ⟨t', hleft, ht⟩ := hleft i s (ho.refl s)
  obtain ⟨u', hright, hu⟩ := hright j t' ht
  have hslash : outcome (Expr.eval h [] (.str "/")) t' = (.ok (.str "/"), t') := rfl
  have hargs := Expr.outcome_values_cons hleft (Expr.outcome_values_cons hslash (Expr.outcome_values_singleton hright))
  have hconcat : Catalog.lookup? σ "concat" = some (.value Catalog.Collections.concat) := rfl
  refine ⟨u', ?_, hu⟩
  rw [TemplateString.eval_eq, parse_joinSegments hx he hf, htree, ← Catalog.Collections.concat_segments]
  exact Expr.outcome_call_value hconcat hargs

end Overlooks
end Host

namespace TemplateString

/-- Two joined strings of which one is an expression are an expression. It gives what the strings give in turn, with a
slash in between, on every host that overlooks the offsets that remarks quote, and leaves a state that the host takes
for the same. The hosts of deployments and of the bodies of their functions do, up to how often a remark is kept, and so
does the host without a deployment, where only the quoted offsets differ. -/
theorem eval_joinSegments {l r : String} (hx : Expr.isExpression l = true ∨ Expr.isExpression r = true) :
    Expr.isExpression (joinSegments l r) = true ∧
      (∀ {σ : Type} {h : Host σ} {R : σ → σ → Prop}, h.Overlooks R → h.Joins R l r) ∧
      (∀ (d : Deployment) (ledger : Ledger) (depth : Nat), (d.hostAt ledger depth).Joins Scope.SameButRemarks l r) ∧
      (∀ (d : Deployment) (depth : Nat) (f : UserFunction) (arguments : Entries Json),
        (f.bodyHost d (d.callFunction depth) arguments).Joins Scope.SameButRemarks l r) ∧
      Standalone.host.Joins Standalone.SameButOffsets l r :=
  ⟨isExpression_joinSegments_operands hx, fun ho => ho.joins hx,
    fun d ledger depth => (d.hostAt_overlooks ledger depth).joins hx,
    fun d depth f arguments => (d.bodyHost_overlooks depth f arguments).joins hx, Standalone.host_overlooks.joins hx⟩

/-- An expression that remarks on a branch that it does not take, and a literal with a quote. -/
theorem eval_joinSegments_quoted :
    let left := "[if(true, 'a', foo())]"
    let h := (Deployment.plain [] [] []).host ⟨[], {}, [], [], [], [], []⟩
    Expr.isExpression left = true ∧ Expr.isExpression (joinSegments left "it's") = true ∧
      ∃ u, outcome (eval h (joinSegments left "it's")) {} = (.ok (.str "a/it's"), u) ∧
        (outcome (eval h left) {}).2.SameButRemarks u := by
  intro left h
  have hx : Expr.isExpression left = true := by decide
  obtain ⟨hjoined, -, hjoins, -⟩ := eval_joinSegments (l := left) (r := "it's") (.inl hx)
  have hgives : (outcome (eval h left) {}).1.toOption.bind Json.str? = some "a" := by decide +kernel
  obtain ⟨t, ht⟩ : ∃ t, t = (outcome (eval h left) {}).2 := ⟨_, rfl⟩
  have hleft : outcome (eval h left) {} = (.ok (.str "a"), t) :=
    Prod.ext (toOption_eq_some.mp (Json.bind_str?_eq_some.mp hgives)) ht.symm
  have hright : outcome (eval h "it's") t = (.ok (.str "it's"), t) := outcome_eval_literal (by decide) h t
  rw [← ht]
  exact ⟨hx, hjoined, hjoins _ _ _ "a" "it's" {} t t hleft hright⟩

variable {σ : Type} (h : Host σ)

def text? (s : String) (t : σ) : Option String := (outcome (eval h s) t).1.toOption.bind Json.str?

def leaves (s : String) (t : σ) : σ := (outcome (eval h s) t).2

def echo : Host Standalone :=
  { Standalone.host with parameterValue := fun _ s => (.ok (.str (s.warnings.getLast?.getD "")), s) }

/-- A deployment keeps one warning of two that are the same, but two that quote other offsets. On a host that gives out
what it was warned of, the offset is in the value. -/
theorem joinSegments_shows_offsets :
    let h := (Deployment.plain [] [] []).host ⟨[], {}, [], [], [], [], []⟩
    let left := "[if(true, 'a', foo())]"
    let right := "[if(true, 'b', foo())]"
    let last := "[parameters('last')]"
    text? h left {} = some "a" ∧ text? h right (leaves h left {}) = some "b" ∧
      (leaves h right (leaves h left {})).diagnostics.length = 1 ∧
      text? h (joinSegments left right) {} = some "a/b" ∧
      (leaves h (joinSegments left right) {}).diagnostics.length = 2 ∧
      text? echo left {} = some "a" ∧ (text? echo last (leaves echo left {})).isSome = true ∧
      text? echo (joinSegments left last) {} ≠ (text? echo last (leaves echo left {})).map ("a/" ++ ·) := by
  decide +kernel

end TemplateString
end ResourceTemplate
