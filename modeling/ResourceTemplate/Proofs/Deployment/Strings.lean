import ResourceTemplate.Deployment.Value
import ResourceTemplate.Proofs.Expr.Evaluation
import ResourceTemplate.Proofs.Expr.Unambiguity
import ResourceTemplate.Proofs.Outcome

namespace ResourceTemplate

namespace TemplateString

/-- What is no expression is a literal, which begins with a bracket if it does. -/
theorem exists_literal {w : String} (h : Expr.isExpression w = false) :
    ∃ text, parse w = .ok (.literal text) ∧ (text.toList.head? = some '[' ↔ w.toList.head? = some '[') := by
  unfold parse
  rw [h, if_neg Bool.false_ne_true]
  split
  · rename_i hw
    exact ⟨_, rfl, by rw [hw, String.toList_ofList]; rfl⟩
  · exact ⟨w, rfl, Iff.rfl⟩

theorem head_of_expression {w : String} {e : Expr} (h : parse w = .ok (.expression e)) :
    w.toList.head? = some '[' := by
  by_contra hw
  obtain ⟨text, hp, -⟩ := exists_literal (Expr.isExpression_eq_false hw)
  cases hp.symm.trans h

def Escaped (w : String) : Prop := ['[', '['] <+: w.toList

instance (w : String) : Decidable (Escaped w) := inferInstanceAs (Decidable (_ <+: _))

/-- A literal is itself unless its bracket is escaped. -/
theorem eq_of_not_escaped {w text : String} (hw : ¬ Escaped w) (h : parse w = .ok (.literal text)) : text = w := by
  cases he : Expr.isExpression w with
  | true =>
    rw [Expr.templateString_of_isExpression he] at h
    cases hp : Expr.parse w <;> simp [hp, Except.map] at h
  | false =>
    obtain ⟨t, ht, hsame⟩ := Expr.templateString_of_not_isExpression he
    unfold Escaped at hw
    rw [if_neg hw] at hsame
    cases ht.symm.trans h
    exact hsame

theorem eq_of_literal {w text : String} (hw : w.toList.head? ≠ some '[') (h : parse w = .ok (.literal text)) :
    text = w := by
  refine eq_of_not_escaped ?_ h
  rintro ⟨rest, hs⟩
  rw [← hs] at hw
  exact hw rfl

end TemplateString

namespace Value

variable {w : String} (host : Host Scope) (pointer : String) (s : Scope)

theorem outcome_onHost_expression {e : Expr} (h : TemplateString.parse w = .ok (.expression e)) :
    outcome (onHost host pointer w) s =
      ((outcome (Expr.eval host [] e) { s with pointer }).1.mapError (.expression pointer),
        { (outcome (Expr.eval host [] e) { s with pointer }).2 with pointer := s.pointer }) := by
  unfold onHost
  rw [TemplateString.head_of_expression h, if_pos (beq_self_eq_true _), ScopeM.outcome_atPlace,
    TemplateString.eval_eq, h]

/-- A literal gives the text it stands for and changes nothing. -/
theorem outcome_onHost_literal {text : String} (h : TemplateString.parse w = .ok (.literal text)) :
    outcome (onHost host pointer w) s = (.ok (.str text), s) := by
  unfold onHost
  split
  · rw [ScopeM.outcome_atPlace, TemplateString.eval_eq, h]
    rfl
  · rename_i hw
    rw [TemplateString.eq_of_literal (by simpa using hw) h]
    rfl

theorem outcome_key_literal {text : String} (h : TemplateString.parse w = .ok (.literal text)) :
    outcome (key (onHost host) pointer w) s = (.ok text, s) := by
  unfold key
  split
  · rw [outcome_bind, outcome_onHost_literal host pointer s h]
    rfl
  · rename_i hw
    rw [TemplateString.eq_of_literal (by simpa using hw) h]
    rfl

end Value
end ResourceTemplate
