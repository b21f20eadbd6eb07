import ResourceTemplate.Expr.Standalone
import ResourceTemplate.Proofs.Expr.Evaluation
import ResourceTemplate.Proofs.Expr.Unambiguity
import ResourceTemplate.Template.Reader

namespace ResourceTemplate

open Template

namespace TemplateString

/-- The text that a literal stands for: of two brackets at its start it keeps one. -/
def literalText (s : String) : String := String.ofList (unescapeLiteral s.toList)

theorem parse_literal {s : String} (h : Expr.isExpression s = false) : parse s = .ok (.literal (literalText s)) := by
  unfold parse
  rw [h, if_neg Bool.false_ne_true]
  split
  · rename_i rest hs
    rw [literalText, hs]
    rfl
  · rename_i hs
    have hsame : unescapeLiteral s.toList = s.toList := by
      unfold unescapeLiteral
      split
      · rename_i h'
        exact absurd h' (hs _)
      · rfl
    rw [literalText, hsame, String.ofList_toList]

/-- A literal is its text on every host and changes nothing. -/
theorem outcome_eval_literal {σ : Type} {s : String} (h : Expr.isExpression s = false) (host : Host σ) (t : σ) :
    outcome (eval host s) t = (.ok (.str (literalText s)), t) := by
  rw [eval_eq, parse_literal h]
  rfl

end TemplateString

namespace Template

/-- What begins a text in which a separator stands begins what is before it, if it does not have the separator. -/
theorem prefix_append_cons {w cs ds : List Char} {sep : Char} (h : sep ∉ w) : w <+: cs ++ sep :: ds ↔ w <+: cs := by
  refine ⟨fun hw => ?_, fun hw => hw.trans (List.prefix_append _ _)⟩
  induction w generalizing cs with
  | nil => exact List.nil_prefix
  | cons x w ih =>
    rw [List.mem_cons, not_or] at h
    cases cs with
    | nil => exact absurd (List.cons_prefix_cons.mp hw).1.symm h.1
    | cons c cs =>
      rw [List.cons_append] at hw
      obtain ⟨rfl, htail⟩ := List.cons_prefix_cons.mp hw
      exact List.cons_prefix_cons.mpr ⟨rfl, ih h.2 htail⟩

theorem suffix_append_cons {w cs ds : List Char} {sep : Char} (h : sep ∉ w) : w <:+ cs ++ sep :: ds ↔ w <:+ ds := by
  have hreversed : w.reverse <+: ds.reverse ++ sep :: cs.reverse ↔ w.reverse <+: ds.reverse :=
    prefix_append_cons (by simpa using h)
  rw [← List.reverse_prefix, List.reverse_append, List.reverse_cons, List.append_assoc, List.singleton_append,
    hreversed, List.reverse_prefix]

def OpensBracket (s : String) : Prop := ['['] <+: s.toList ∧ ¬['[', '['] <+: s.toList

def ClosesBracket (s : String) : Prop := [']'] <:+ s.toList

instance (s : String) : Decidable (OpensBracket s) := inferInstanceAs (Decidable (_ ∧ _))

instance (s : String) : Decidable (ClosesBracket s) := inferInstanceAs (Decidable (_ <:+ _))

/-- Only the start of a literal stands for something else. -/
theorem unescapeLiteral_append (cs ds : List Char) :
    unescapeLiteral (cs ++ '/' :: ds) = unescapeLiteral cs ++ '/' :: ds := by
  match cs with
  | [] => rfl
  | [c] => by_cases hc : c = '[' <;> simp [unescapeLiteral]
  | '[' :: '[' :: rest => rfl
  | c :: d :: rest =>
    unfold unescapeLiteral
    split <;> split <;> simp_all

theorem suffix_unescapeLiteral (cs : List Char) : [']'] <:+ unescapeLiteral cs ↔ [']'] <:+ cs := by
  unfold unescapeLiteral
  split
  · rename_i rest
    have htwice : [']'] <:+ '[' :: '[' :: rest ↔ [']'] = '[' :: '[' :: rest ∨ [']'] <:+ '[' :: rest :=
      List.suffix_cons_iff
    rw [htwice]
    exact (or_iff_right (by simp)).symm
  · rfl

theorem joinSegments_literals {l r : String} (hl : Expr.isExpression l = false) (hr : Expr.isExpression r = false) :
    (joinSegments l r).toList = l.toList ++ '/' :: unescapeLiteral r.toList := by
  unfold joinSegments
  rw [if_pos (by rw [hl, hr]; rfl)]
  simp

/-- Two joined literals are taken for an expression where the first opens a bracket and the second closes one. -/
theorem isExpression_joinSegments {l r : String} (hl : Expr.isExpression l = false) (hr : Expr.isExpression r = false) :
    Expr.isExpression (joinSegments l r) = true ↔ OpensBracket l ∧ ClosesBracket r := by
  rw [Expr.isExpression_iff, joinSegments_literals hl hr, prefix_append_cons (by decide),
    prefix_append_cons (by decide), suffix_append_cons (by decide), suffix_unescapeLiteral]
  refine ⟨fun ⟨_, h⟩ => ⟨⟨h.1, h.2.1⟩, h.2.2⟩, fun ⟨ho, hc⟩ => ⟨?_, ho.1, ho.2, hc⟩⟩
  -- there are at least the two brackets and the slash
  obtain ⟨before, hbefore⟩ := ho.1
  obtain ⟨after, hafter⟩ := (suffix_unescapeLiteral _).mpr hc
  have hopening : '['.utf8Size = 1 := rfl
  have hclosing : ']'.utf8Size = 1 := rfl
  have hslash : '/'.utf8Size = 1 := rfl
  simp only [← hbefore, ← hafter, Text.byteLength_append, Text.byteLength_cons]
  omega

theorem literalText_joinSegments {l r : String} (hl : Expr.isExpression l = false)
    (hr : Expr.isExpression r = false) :
    TemplateString.literalText (joinSegments l r) =
      TemplateString.literalText l ++ "/" ++ TemplateString.literalText r := by
  unfold TemplateString.literalText
  rw [joinSegments_literals hl hr, unescapeLiteral_append, ← List.singleton_append, String.ofList_append,
    String.ofList_append, String.append_assoc]

/-- Two joined literals are a literal again unless the first opens a bracket that the second closes. It stands for
what they stand for with a slash in between, on every host. -/
theorem eval_joinSegments_literals {l r : String} (hl : Expr.isExpression l = false)
    (hr : Expr.isExpression r = false) :
    TemplateString.parse l = .ok (.literal (TemplateString.literalText l)) ∧
      TemplateString.parse r = .ok (.literal (TemplateString.literalText r)) ∧
      (Expr.isExpression (joinSegments l r) = true ↔ OpensBracket l ∧ ClosesBracket r) ∧
      (¬(OpensBracket l ∧ ClosesBracket r) → ∀ {σ : Type} (h : Host σ) (s : σ),
        outcome (TemplateString.eval h (joinSegments l r)) s =
          (.ok (.str (TemplateString.literalText l ++ "/" ++ TemplateString.literalText r)), s)) := by
  refine ⟨TemplateString.parse_literal hl, TemplateString.parse_literal hr, isExpression_joinSegments hl hr, ?_⟩
  intro hopen σ h s
  have hjoined : Expr.isExpression (joinSegments l r) = false := by
    rw [← Bool.not_eq_true, isExpression_joinSegments hl hr]
    exact hopen
  rw [TemplateString.outcome_eval_literal hjoined, literalText_joinSegments hl hr]

theorem eval_joinSegments_literals_escaped :
    outcome (TemplateString.eval Standalone.host (joinSegments "[[a" "[[b]")) {} = (.ok (.str "[a/[b]"), {}) :=
  (eval_joinSegments_literals (l := "[[a") (r := "[[b]") (by decide) (by decide)).2.2.2 (by decide) Standalone.host {}

/-- A bracket that one literal opens and the next closes is taken for an expression, which is none. -/
theorem eval_joined_brackets_fails :
    TemplateString.parse "[a" = .ok (.literal "[a") ∧ TemplateString.parse "b]" = .ok (.literal "b]") ∧
      joinSegments "[a" "b]" = "[a/b]" ∧
      ∀ (σ : Type) (h : Host σ) (s : σ),
        outcome (TemplateString.eval h "[a/b]") s = (.error (.parse ⟨1, .expected .functionCall⟩), s) := by
  refine ⟨rfl, rfl, rfl, fun σ h s => ?_⟩
  have hparse : TemplateString.parse "[a/b]" = .error ⟨1, .expected .functionCall⟩ := rfl
  rw [TemplateString.eval_eq, hparse]
  rfl

end Template
end ResourceTemplate
