import ResourceTemplate.Proofs.Deployment.Evaluation

namespace ResourceTemplate

variable {E : ExprError → Prop}

def Within (E : ExprError → Prop) (e : ExpandError) : Prop :=
  ∀ pointer source, e = .expression pointer source → E source

@[simp] theorem within_expression {pointer : String} {source : ExprError} :
    Within E (.expression pointer source) ↔ E source := by
  simp [Within]

theorem Admits.within (hE : Admits E) {e : ExpandError} (h : e.isDefinite = true) : Within E e := by
  rintro pointer source rfl
  exact hE source h

/-- A failure around an expression that is taken as one inside: any but that of an expression is malformed. -/
theorem Admits.toExprError (hE : Admits E) {e : ExpandError} (h : Within E e) : E e.toExprError := by
  cases e with
  | expression pointer source => exact within_expression.mp h
  | _ => exact hE _ rfl

def WhereAborted (E : ExprError → Prop) (e : ExprError) : Prop := e.isAborted = true → E e

theorem Admits.whereAborted (hE : Admits E) : Admits (WhereAborted E) := fun e he _ => hE e he

theorem Within.whereAborted {e : ExpandError} (h : Within E e) : Within (WhereAborted E) e :=
  fun pointer source he _ => h pointer source he

/-- A structural failure of an expression is one by which evaluation is broken off. -/
theorem within_of_isStructural {e : ExpandError} (h : e.isStructural = true) (hw : Within (WhereAborted E) e) :
    Within E e := by
  rintro pointer source rfl
  exact within_expression.mp hw h

theorem isStructural_of_isAborted {e : ExpandError} (h : e.isAborted = true) : e.isStructural = true := by
  cases e with
  | expression => exact h
  | _ => cases h

namespace ScopeM

variable {α : Type} {P Q : ExpandError → Prop} {m : ScopeM α}

theorem failsWith_lift {r : Except ExpandError α} (h : ∀ e, r = .error e → Q e) :
    FailsWith Q (lift r) := by
  intro s e t he
  cases he
  exact h e rfl

theorem failsWith_act (f : Scope → Scope) : FailsWith Q (act f) := .of_ok fun s => ⟨(), f s, rfl⟩

theorem failsWith_withLoop (name : String) (i : Nat) (h : FailsWith Q m) :
    FailsWith Q (withLoop name i m) := by
  intro s e t he
  rw [outcome_withLoop, Prod.mk.injEq] at he
  exact h _ e _ (Prod.ext he.1 rfl)

theorem failsWith_outsideLoops (h : FailsWith Q m) : FailsWith Q (outsideLoops m) := by
  intro s e t he
  rw [outcome_outsideLoops, Prod.mk.injEq] at he
  exact h _ e _ (Prod.ext he.1 rfl)

theorem failsWith_attempt (hm : FailsWith P m) (hQ : ∀ e, P e → e.isAborted = true → Q e) :
    FailsWith Q (attempt m) := by
  intro s e t he
  rw [outcome_attempt, Prod.mk.injEq] at he
  obtain ⟨hr, ha⟩ := ExpandError.caught_eq_error he.1
  exact hQ e (hm s e _ (Prod.ext hr rfl)) ha

theorem failsWith_atPlace (pointer : String) {m : EvalM Scope α} (h : FailsWith E m) :
    FailsWith (Within E) (atPlace pointer m) := by
  intro s e t he
  rw [outcome_atPlace, Prod.mk.injEq] at he
  have hm : Fails E (outcome m { s with pointer }).1 := fun e' he' => h _ e' _ (Prod.ext he' rfl)
  exact hm.mapError (fun _ => within_expression.mpr) e he.1

theorem failsWith_toEval (hE : Admits E) {m : ScopeM α} (h : FailsWith (Within E) m) :
    FailsWith E m.toEval := by
  intro s e t he
  rw [outcome_toEval, Prod.mk.injEq] at he
  have hm : Fails (Within E) (outcome m s).1 := fun e' he' => h s e' _ (Prod.ext he' rfl)
  exact hm.mapError (fun _ => hE.toExprError) e he.1

end ScopeM

/-- To fail with nothing but what has a property is a discipline of the steps of a deployment. -/
theorem Admits.surrounds (hE : Admits E) :
    (failing (Within E) : Discipline ExpandError Scope).Surrounds (failing E) where
  inside := hE.evaluates
  lift h := ScopeM.failsWith_lift fun e he => hE.within (h e he)
  report _ _ _ := ScopeM.failsWith_act _
  atPlace pointer h := ScopeM.failsWith_atPlace pointer h
  withLoop name i h := ScopeM.failsWith_withLoop name i h
  attempt hm := ScopeM.failsWith_attempt hm fun _ he _ => he

namespace Deployment

variable {d : Deployment}

theorem failsWith_defaultValue (hE : Admits E) {eval : Evaluation}
    (he : ∀ pointer v, FailsWith (Within E) (eval pointer v)) (p : ParameterDefinition) (key : String) (default : Json) :
    FailsWith E (defaultValue eval p key default) := by
  have hv := ScopeM.failsWith_toEval hE (ScopeM.failsWith_outsideLoops
    (he ("/parameters/" ++ p.name ++ "/defaultValue") default))
  intro s e t h
  change defaultValue eval p key default s = _ at h
  unfold defaultValue at h
  dsimp only at h
  split at h
  · rename_i hr
    cases h
    exact hv _ e _ hr
  · split at h
    · rename_i hc
      cases h
      exact hE e (definite_check p _ e hc)
    · cases h

theorem failsWith_freshVariable (hE : Admits E) (key : String) {value : ScopeM Json}
    (hv : FailsWith (Within E) value) : FailsWith E (freshVariable key value) := by
  intro s e t h
  change freshVariable key value s = _ at h
  unfold freshVariable at h
  split at h
  · rename_i hr
    cases h
    exact ScopeM.failsWith_toEval hE (ScopeM.failsWith_outsideLoops hv) _ e _ hr
  · cases h

theorem failsWith_parameterValue (hE : Admits E) {eval : Evaluation}
    (he : ∀ pointer v, FailsWith (Within E) (eval pointer v)) (name : String) :
    FailsWith E (d.parameterValue eval name) := by
  refine Discipline.Obeys.get.bind fun s => ?_
  split
  · exact .pure _
  · exact FailsWith.throw (hE _ rfl)
  · split
    · exact FailsWith.throw (hE _ rfl)
    · refine Discipline.Obeys.bind ?_ fun v => (FailsWith.modify _).bind fun _ => .pure _
      unfold freshParameter
      split
      · exact .pure _
      · exact failsWith_defaultValue hE he _ _ _
      · exact .ite (.pure _) (FailsWith.throw (hE _ rfl))

theorem failsWith_variableValue (hE : Admits E) {eval : Evaluation}
    {evalCopy : String → Json → ScopeM (String × Json)}
    (he : ∀ pointer v, FailsWith (Within E) (eval pointer v))
    (hc : ∀ pointer v, FailsWith (Within E) (evalCopy pointer v)) (name : String) :
    FailsWith E (d.variableValue eval evalCopy name) := by
  refine Discipline.Obeys.get.bind fun s => ?_
  split
  · exact .pure _
  · exact FailsWith.throw (hE _ rfl)
  · split
    · exact FailsWith.throw (hE _ rfl)
    · exact failsWith_freshVariable hE _ (he _ _)
    · exact failsWith_freshVariable hE _ ((hc _ _).bind fun _ => .pure _)

/-- Only what is known to be pending may be cured by another resource. -/
theorem failsWith_resolve (hE : Admits E) {l : Ledger}
    (hl : ∀ target, l.find target = .ok .pending → E (.unresolvedSymbol target))
    (view : ResourceValue → Json) (target : String) : FailsWith E (d.resolve l view target) := by
  unfold resolve
  split
  · exact FailsWith.throw (hE _ rfl)
  · exact .pure _
  · exact FailsWith.throw (hl target (by assumption))
  · exact FailsWith.throw (hE _ rfl)
  · exact FailsWith.throw (hE _ rfl)
  · exact FailsWith.throw (hE _ rfl)
  · exact (FailsWith.modify _).bind fun _ => .pure _

/-- An evaluation fails with nothing but what has a property, if references to what is pending do and so
does what is nested too deeply. -/
theorem failing_obeys (hE : Admits E) (hx : E .callDepthExceeded) {l : Ledger}
    (hl : ∀ target, l.find target = .ok .pending → E (.unresolvedSymbol target)) :
    d.Obeys l (failing E) (failing (Within E)) where
  surrounds := hE.surrounds
  exhausted := FailsWith.throw hx
  newGuid := FailsWith.of_ok fun _ => ⟨_, _, rfl⟩
  remark _ := FailsWith.of_ok fun _ => ⟨_, _, rfl⟩
  resolve := failsWith_resolve hE hl
  parameterValue he := failsWith_parameterValue hE he
  variableValue he hc := failsWith_variableValue hE he hc

/-- Where evaluation is broken off, it fails with what has a property of all definite failures. -/
theorem evalObeys_whereAborted (hE : Admits E) (d : Deployment) (l : Ledger) :
    d.EvalObeys l (failing (WhereAborted E)) (failing (Within (WhereAborted E))) :=
  (d.failing_obeys hE.whereAborted nofun fun _ _ => nofun).evalObeys

/-- An outcome that is taken as a value is no failure, unless evaluation is broken off. -/
theorem failing_previews (hE : Admits E) (d : Deployment) (l : Ledger) : d.Previews l (failing (Within E)) :=
  have h := evalObeys_whereAborted hE d l
  have broken {e : ExpandError} (hw : Within (WhereAborted E) e) (ha : e.isAborted = true) : Within E e :=
    within_of_isStructural (isStructural_of_isAborted ha) hw
  { eval _ _ := ScopeM.failsWith_attempt (h.eval _ _) fun _ => broken
    evalCount _ _ := ScopeM.failsWith_attempt (h.evalCount _ _) fun _ => broken
    evalObject _ _ := ScopeM.failsWith_attempt (h.evalObject _ _) fun _ => broken
    report _ _ := ScopeM.failsWith_act _
    withLoop := ScopeM.failsWith_withLoop }

end Deployment
end ResourceTemplate
