import ResourceTemplate.Expander.Linked
import ResourceTemplate.Proofs.Deployment.Evaluation

namespace ResourceTemplate

section

namespace Scope

theorem report_eq (s : Scope) (deployment pointer : String) (x : Diagnostic) :
    ∃ diagnostics log, s.report deployment pointer x = { s with diagnostics, log } := by
  unfold report
  dsimp only
  split
  · exact ⟨s.diagnostics, s.log, rfl⟩
  · exact ⟨_, _, rfl⟩

theorem remember_eq (s : Scope) (v : Json) : ∃ secure, s.remember v = { s with secure } := by
  unfold remember
  split
  · exact ⟨_, rfl⟩
  · exact ⟨s.secure, rfl⟩

end Scope

theorem Deployment.keepParameter_eq (p : ParameterDefinition) (key : String) (v : Json) (s : Scope) :
    ∃ secure, keepParameter p key v s =
      { s with parameters := s.parameters.insert key (.evaluated v), secure } := by
  unfold keepParameter
  split
  · obtain ⟨secure, hs⟩ := s.remember_eq v
    rw [hs]
    exact ⟨secure, rfl⟩
  · exact ⟨s.secure, rfl⟩

theorem Deployment.keepParameter_parameters (p : ParameterDefinition) (key : String) (v : Json)
    (s : Scope) :
    (keepParameter p key v s).parameters = s.parameters.insert key (.evaluated v) := by
  obtain ⟨secure, hs⟩ := keepParameter_eq p key v s
  rw [hs]

/-- To find a resource changes nothing, or reports that it is not declared. -/
theorem Deployment.outcome_resolve (d : Deployment) (l : Ledger) (view : ResourceValue → Json)
    (target : String) : ∃ r, (∀ s, outcome (d.resolve l view target) s = (r, s)) ∨
      ∀ s, outcome (d.resolve l view target) s =
        (r, s.report d.identity.name s.pointer (.externalReference target)) := by
  unfold resolve
  split
  · exact ⟨_, .inl fun _ => rfl⟩
  · exact ⟨_, .inl fun _ => rfl⟩
  · exact ⟨_, .inl fun _ => rfl⟩
  · exact ⟨_, .inl fun _ => rfl⟩
  · exact ⟨_, .inl fun _ => rfl⟩
  · exact ⟨_, .inl fun _ => rfl⟩
  · exact ⟨_, .inr fun _ => rfl⟩

/-- To create a deployment is to check values and to report some. -/
theorem Deployment.create_scope (t : Template) (o : Options) (identity : DeploymentIdentity)
    (values : Entries Json) (s : Scope) :
    ∃ diagnostics log, (outcome (create t o identity values) s).2 = { s with diagnostics, log } := by
  have hf : Frame fun s t : Scope => ∃ diagnostics log, t = { s with diagnostics, log } := by
    refine ⟨fun s => ⟨s.diagnostics, s.log, rfl⟩, ?_⟩
    rintro s _ _ ⟨_, _, rfl⟩ ⟨diagnostics, log, rfl⟩
    exact ⟨diagnostics, log, rfl⟩
  exact obeys_create (T := changing hf) (fun _ => hf.refl) (fun _ _ x s => s.report_eq _ _ x) t o identity values s

theorem Deployment.create_parameters (t : Template) (o : Options) (identity : DeploymentIdentity)
    (values : Entries Json) (s : Scope) :
    (outcome (create t o identity values) s).2.parameters = s.parameters := by
  obtain ⟨_, _, hs⟩ := create_scope t o identity values s
  rw [hs]

theorem Template.parameter?_congr (t : Template) {name other : String}
    (h : Name.fold name = Name.fold other) : t.parameter? name = t.parameter? other := by
  have hsame (r : ParameterDefinition) : Name.same r.name name = Name.same r.name other := by
    simp only [Name.same, h]
  simp only [Template.parameter?, hsame]

/-- A value that a parameter may be given: its caller supplies it, or none, and it passes the check of its
declaration. -/
def Deployment.MayGive (d : Deployment) (name : String) (p : ParameterDefinition) (v : Json) : Prop :=
  d.supplied.get? (Name.fold name) = some v ∨
    d.supplied.get? (Name.fold name) = none ∧ p.check v = .ok ()

/-- A relation between scopes that holds across the primitive changes of evaluation. A loop that is entered
for a step is left after it, and what is set aside or set for the time of a step is put back; a value that a
parameter may be given, or that of a variable, is kept where there was none, and there it is marked meanwhile
as under evaluation. -/
structure StepSteady (d : Deployment) (R : Scope → Scope → Prop) : Prop extends Frame R where
  loop {s t : Scope} (l : String × Int) :
    R { s with loops := l :: s.loops } t → R s { t with loops := t.loops.tail }
  outside {s t : Scope} : R { s with loops := [] } t → R s { t with loops := s.loops }
  place {s t : Scope} (pointer : String) :
    R { s with pointer } t → R s { t with pointer := s.pointer }
  report (s : Scope) (deployment pointer : String) (x : Diagnostic) :
    R s (s.report deployment pointer x)
  guids (s : Scope) (guids : Nat) : R s { s with guids }
  keepParameter {s : Scope} {name : String} {p : ParameterDefinition} {v : Json} :
    d.template.parameter? name = some p → d.MayGive name p v →
    s.parameters.get? (Name.fold name) = none → R s (Deployment.keepParameter p (Name.fold name) v s)
  finishParameter {s t : Scope} {name : String} {p : ParameterDefinition} {v : Json} :
    d.template.parameter? name = some p → d.MayGive name p v →
    s.parameters.get? (Name.fold name) = none →
    R (Deployment.setParameter (Name.fold name) .inProgress s) t →
    R s (Deployment.keepParameter p (Name.fold name) v t)
  dropParameter {s t : Scope} {key : String} : s.parameters.get? key = none →
    R (Deployment.setParameter key .inProgress s) t → R s (Deployment.clearParameter key t)
  finishVariable {s t : Scope} {key : String} (v : Json) : s.vars.get? key = none →
    R (Deployment.setVariable key .inProgress s) t →
    R s (Deployment.setVariable key (.evaluated v) t)
  dropVariable {s t : Scope} {key : String} : s.vars.get? key = none →
    R (Deployment.setVariable key .inProgress s) t → R s (Deployment.clearVariable key t)

namespace StepSteady

variable {α ε : Type} {d : Deployment} {l : Ledger} {R : Scope → Scope → Prop} (h : StepSteady d R)

abbrev discipline : Discipline ε Scope := changing h.toFrame

theorem surrounds : (h.discipline : Discipline ExpandError Scope).Surrounds h.discipline where
  inside := h.toFrame.evaluates
  lift _ s := h.refl s
  report deployment pointer x s := h.report s deployment pointer x
  atPlace pointer hm s := h.place pointer (hm { s with pointer })
  withLoop name i hm s := h.loop (name, (i : Int)) (hm { s with loops := (name, (i : Int)) :: s.loops })
  attempt hm s := hm s

section
include h

/-- What an evaluation outside of all loops does as part of an expression. -/
theorem outsideLoops {m : ScopeM α} (hm : (h.discipline : Discipline ExpandError Scope).Obeys m)
    {s t : Scope} {r : Except ExprError α}
    (hr : (ScopeM.outsideLoops m).toEval.run.run s = (r, t)) : R s t := by
  have ht : t = (outcome (ScopeM.outsideLoops m) s).2 := congrArg Prod.snd hr.symm
  rw [ht]
  exact h.outside (hm { s with loops := [] })

theorem resolve (view : ResourceValue → Json) (target : String) :
    (h.discipline : Discipline ExprError Scope).Obeys (d.resolve l view target) := by
  intro s
  obtain ⟨r, hr | hr⟩ := d.outcome_resolve l view target
  · rw [hr]
    exact h.refl s
  · rw [hr]
    exact h.report s d.identity.name s.pointer (.externalReference target)

omit h in
def Leaves (R : Scope → Scope → Prop) (p : ParameterDefinition) (key : String) (s : Scope) :
    Except ExprError Json × Scope → Prop
  | (.ok v, t) => R s (Deployment.keepParameter p key v t)
  | (.error _, t) => R s t

theorem defaultValue {eval : Evaluation}
    (he : ∀ pointer v, (h.discipline : Discipline ExpandError Scope).Obeys (eval pointer v))
    {name : String} {p : ParameterDefinition} (hp : d.template.parameter? name = some p) {s : Scope}
    (hs : s.parameters.get? (Name.fold name) = none) (hn : d.supplied.get? (Name.fold name) = none)
    (default : Json) :
    Leaves R p (Name.fold name) s
      (outcome (Deployment.defaultValue eval p (Name.fold name) default) s) := by
  change Leaves R p (Name.fold name) s (Deployment.defaultValue eval p (Name.fold name) default s)
  unfold Deployment.defaultValue
  dsimp only
  split
  · rename_i e t hr
    exact h.dropParameter hs (h.outsideLoops (he _ _) hr)
  · rename_i v t hr
    have ht := h.outsideLoops (he _ _) hr
    split
    · exact h.dropParameter hs ht
    · rename_i hc
      exact h.finishParameter hp (.inr ⟨hn, hc⟩) hs ht

theorem freshParameter {eval : Evaluation}
    (he : ∀ pointer v, (h.discipline : Discipline ExpandError Scope).Obeys (eval pointer v))
    {name : String} {p : ParameterDefinition} (hp : d.template.parameter? name = some p) {s : Scope}
    (hs : s.parameters.get? (Name.fold name) = none) :
    Leaves R p (Name.fold name) s (outcome (d.freshParameter eval p (Name.fold name)) s) := by
  unfold Deployment.freshParameter
  split
  · rename_i hv
    exact h.keepParameter hp (.inl hv) hs
  · rename_i hv _
    exact h.defaultValue he hp hs hv _
  · rename_i hv _
    split
    · rename_i hn
      exact h.keepParameter hp (.inr ⟨hv, if_pos hn⟩) hs
    · exact h.refl s

theorem parameterValue {eval : Evaluation}
    (he : ∀ pointer v, (h.discipline : Discipline ExpandError Scope).Obeys (eval pointer v))
    (name : String) :
    (h.discipline : Discipline ExprError Scope).Obeys (d.parameterValue eval name) := by
  intro s
  unfold Deployment.parameterValue
  simp only [outcome_bind, outcome_get]
  split
  · exact h.refl s
  · exact h.refl s
  · rename_i hs
    split
    · exact h.refl s
    · rename_i p hp
      have hl := h.freshParameter he hp hs
      rw [outcome_bind]
      rcases ho : outcome (d.freshParameter eval p (Name.fold name)) s with ⟨e | v, t⟩
      · rw [ho] at hl
        exact hl
      · rw [ho] at hl
        exact hl

theorem freshVariable {key : String} {value : ScopeM Json}
    (hv : (h.discipline : Discipline ExpandError Scope).Obeys value) {s : Scope}
    (hs : s.vars.get? key = none) : R s (outcome (Deployment.freshVariable key value) s).2 := by
  change R s (Deployment.freshVariable key value s).2
  unfold Deployment.freshVariable
  split
  · rename_i e t hr
    exact h.dropVariable hs (h.outsideLoops hv hr)
  · rename_i v t hr
    exact h.finishVariable v hs (h.outsideLoops hv hr)

theorem variableValue {eval : Evaluation} {evalCopy : String → Json → ScopeM (String × Json)}
    (he : ∀ pointer v, (h.discipline : Discipline ExpandError Scope).Obeys (eval pointer v))
    (hc : ∀ pointer v, (h.discipline : Discipline ExpandError Scope).Obeys (evalCopy pointer v))
    (name : String) :
    (h.discipline : Discipline ExprError Scope).Obeys (d.variableValue eval evalCopy name) := by
  intro s
  unfold Deployment.variableValue
  simp only [outcome_bind, outcome_get]
  split
  · exact h.refl s
  · exact h.refl s
  · rename_i hs
    split
    · exact h.refl s
    · exact h.freshVariable (he _ _) hs
    · exact h.freshVariable ((hc _ _).bind fun _ => .pure _) hs

/-- Evaluation in a deployment changes the scope as a relation allows that its primitive steps keep. -/
theorem obeys (l : Ledger) : d.Obeys l h.discipline h.discipline where
  surrounds := h.surrounds
  exhausted s := h.refl s
  newGuid s := h.guids s (s.guids + 1)
  remark text s := h.report s d.identity.name s.pointer (.warning .expressionWarning text)
  resolve := h.resolve
  parameterValue := h.parameterValue
  variableValue := h.variableValue

end
end StepSteady

/-- A relation between scopes that holds across the primitive changes of evaluation, and across what nested
deployments report. -/
structure Steady (d : Deployment) (R : Scope → Scope → Prop) : Prop extends StepSteady d R where
  log (s : Scope) (log : List Diagnostic) : R s { s with log }

/-- A relation between scopes that holds across evaluation in a deployment, with whatever ledger, and across what
nested deployments report. -/
structure EvalSteady (d : Deployment) (R : Scope → Scope → Prop) : Prop extends Frame R where
  evalObeys (l : Ledger) : d.EvalObeys l (changing toFrame) (changing toFrame)
  log (s : Scope) (log : List Diagnostic) : R s { s with log }

namespace EvalSteady

variable {d : Deployment} {R : Scope → Scope → Prop} (h : EvalSteady d R)

abbrev discipline {ε : Type} : Discipline ε Scope := changing h.toFrame

include h

/-- A nested deployment reports what it does and changes nothing else. -/
theorem runNested (nested : Expander.Nested) (t : Template) (identity : DeploymentIdentity)
    (values : Entries Json) : (h.discipline : Discipline ExpandError Scope).Obeys
      (Expander.runNested nested t identity values) := fun s => h.log s _

theorem report (s : Scope) (deployment pointer : String) (x : Diagnostic) : R s (s.report deployment pointer x) :=
  (h.evalObeys (.ofDeclarations [])).surrounds.report deployment pointer x s

theorem and {R' : Scope → Scope → Prop} (h' : EvalSteady d R') : EvalSteady d fun s t => R s t ∧ R' s t where
  refl s := ⟨h.refl s, h'.refl s⟩
  trans s t u hst htu := ⟨h.trans s t u hst.1 htu.1, h'.trans s t u hst.2 htu.2⟩
  evalObeys l := by
    have e := h.evalObeys l
    have e' := h'.evalObeys l
    exact
      { surrounds :=
          { inside := Frame.evaluates _
            lift := fun hr s => ⟨e.surrounds.lift hr s, e'.surrounds.lift hr s⟩
            report := fun _ pointer x s => ⟨e.surrounds.report _ pointer x s, e'.surrounds.report _ pointer x s⟩
            atPlace := fun pointer hm s =>
              ⟨e.surrounds.atPlace pointer (fun s => (hm s).1) s, e'.surrounds.atPlace pointer (fun s => (hm s).2) s⟩
            withLoop := fun name i hm s =>
              ⟨e.surrounds.withLoop name i (fun s => (hm s).1) s, e'.surrounds.withLoop name i (fun s => (hm s).2) s⟩
            attempt := fun hm s => hm s }
        eval := fun pointer v s => ⟨e.eval pointer v s, e'.eval pointer v s⟩
        evalCount := fun pointer v s => ⟨e.evalCount pointer v s, e'.evalCount pointer v s⟩
        evalObject := fun pointer members s => ⟨e.evalObject pointer members s, e'.evalObject pointer members s⟩ }
  log s log := ⟨h.log s log, h'.log s log⟩

end EvalSteady

theorem Steady.evalSteady {d : Deployment} {R : Scope → Scope → Prop} (h : Steady d R) : EvalSteady d R :=
  { h.toFrame with
    evalObeys := fun l => (h.obeys l).evalObeys
    log := h.log }

/-- Whether evaluation may lead from a scope to another: every relation that evaluation keeps, in whatever loops and
with whatever diagnostics, holds between them. -/
def Deployment.LeadsTo (d : Deployment) (s t : Scope) : Prop :=
  ∀ R : Scope → Scope → Prop, Steady d R → (∀ s loops diagnostics, R s { s with loops, diagnostics }) → R s t

theorem Deployment.LeadsTo.loops {d : Deployment} (s : Scope) (loops : List (String × Int)) :
    d.LeadsTo s { s with loops } := fun _ _ hl => hl s loops s.diagnostics

theorem Deployment.LeadsTo.diagnostics {d : Deployment} (s : Scope) (diagnostics : List Diagnostic) :
    d.LeadsTo s { s with diagnostics } := fun _ _ hl => hl s s.loops diagnostics

theorem Deployment.steady_leadsTo (d : Deployment) : Steady d d.LeadsTo where
  refl s _ hR _ := hR.refl s
  trans _ _ _ h k R hR hl := hR.trans _ _ _ (h R hR hl) (k R hR hl)
  loop l h R hR hl := hR.loop l (h R hR hl)
  outside h R hR hl := hR.outside (h R hR hl)
  place pointer h R hR hl := hR.place pointer (h R hR hl)
  report s deployment pointer x _ hR _ := hR.report s deployment pointer x
  guids s guids _ hR _ := hR.guids s guids
  log s log _ hR _ := hR.log s log
  keepParameter hp hv hs _ hR _ := hR.keepParameter hp hv hs
  finishParameter hp hv hs h R hR hl := hR.finishParameter hp hv hs (h R hR hl)
  dropParameter hs h R hR hl := hR.dropParameter hs (h R hR hl)
  finishVariable v hs h R hR hl := hR.finishVariable v hs (h R hR hl)
  dropVariable hs h R hR hl := hR.dropVariable hs (h R hR hl)

end

variable {α : Type} {S : Discipline ExprError Scope} {T : Discipline ExpandError Scope}

namespace ResourceDeclaration

def loopsAt (decl : ResourceDeclaration) (i : Nat) : List (String × Int) :=
  match decl.copy with
  | none => []
  | some copy => [(copy.name, i)]

def inLoop (decl : ResourceDeclaration) (i : Nat) (m : ScopeM α) : ScopeM α :=
  match decl.copy with
  | none => m
  | some copy => ScopeM.withLoop copy.name i m

theorem outcome_inLoop (decl : ResourceDeclaration) (i : Nat) (m : ScopeM α) (s : Scope) :
    (outcome (decl.inLoop i m) s).1 = (outcome m { s with loops := decl.loopsAt i ++ s.loops }).1 := by
  unfold inLoop loopsAt
  cases decl.copy <;> rfl

theorem exists_of_inLoop {decl : ResourceDeclaration} {i : Nat} {m : ScopeM α} {s t : Scope} {a : α}
    (h : outcome (decl.inLoop i m) s = (.ok a, t)) :
    ∃ u, outcome m { s with loops := decl.loopsAt i ++ s.loops } = (.ok a, u) := by
  have hr : (outcome m { s with loops := decl.loopsAt i ++ s.loops }).1 = .ok a := by
    rw [← outcome_inLoop, h]
  exact ⟨_, Prod.ext hr rfl⟩

end ResourceDeclaration

theorem Discipline.Surrounds.inLoop (h : T.Surrounds S) {m : ScopeM α} (hm : T.Obeys m) (decl : ResourceDeclaration)
    (i : Nat) : T.Obeys (decl.inLoop i m) := by
  unfold ResourceDeclaration.inLoop
  split
  · exact hm
  · exact h.withLoop _ _ hm

namespace Deployment

variable {d : Deployment} {l : Ledger} {decl : ResourceDeclaration}

def instanceCount (d : Deployment) (l : Ledger) (decl : ResourceDeclaration) : ScopeM Nat :=
  match decl.copy with
  | none => return 1
  | some copy => d.evalCount l (countPointer decl) copy.count

theorem EvalObeys.instanceCount (h : d.EvalObeys l S T) (decl : ResourceDeclaration) :
    T.Obeys (d.instanceCount l decl) := by
  unfold Deployment.instanceCount
  split
  · exact .pure _
  · exact h.evalCount _ _

/-- At each index the identity of the instance, if it can be evaluated. -/
def previews (d : Deployment) (l : Ledger) (decl : ResourceDeclaration) : ScopeM (List (Option ResourceIdentity)) := do
  match ← ScopeM.attempt (d.instanceCount l decl) with
  | .error _ => return []
  | .ok n => (List.range n).mapM fun i => decl.inLoop i (d.previewIdentity l decl)

/-- The identities that are previewed are those that can be evaluated. -/
theorem previewIdentities_eq (d : Deployment) (l : Ledger) (decl : ResourceDeclaration) :
    d.previewIdentities l decl = do return (← d.previews l decl).filterMap id := by
  unfold previewIdentities previews instanceCount ResourceDeclaration.inLoop
  cases decl.copy with
  | none =>
    have hone : ScopeM.attempt (pure 1 : ScopeM Nat) = pure (.ok 1) := rfl
    have hlist (r : Option ResourceIdentity) : r.toList = [r].filterMap id := by cases r <;> rfl
    simp [hone, hlist]
  | some copy =>
    simp only [bind_assoc]
    refine bind_congr fun r => ?_
    cases r <;> rfl

/-- At each index of the count there is a preview, from a scope that evaluation leads to. -/
theorem previews_at {R : Scope → Scope → Prop} (h : EvalSteady d R) {previews : List (Option ResourceIdentity)}
    {s t : Scope} (hp : outcome (d.previews l decl) s = (.ok previews, t)) {n i : Nat}
    (hn : (outcome (d.instanceCount l decl) s).1 = .ok n) (hi : i < n) :
    ∃ r u v, previews[i]? = some r ∧ R s u ∧
      outcome (decl.inLoop i (d.previewIdentity l decl)) u = (.ok r, v) := by
  have hE := h.evalObeys l
  have hcount : R s (outcome (d.instanceCount l decl) s).2 := hE.instanceCount decl s
  unfold Deployment.previews at hp
  rw [outcome_bind, ScopeM.outcome_attempt, hn] at hp
  have hlength := (outcome_mapM_ok hp).length_eq
  rw [List.length_range] at hlength
  have hget : previews[i]? = some previews[i] := List.getElem?_eq_getElem (hlength ▸ hi)
  obtain ⟨a, u, v, ha, hu, hr⟩ := outcome_mapM_at h.toFrame
    (fun i => hE.surrounds.inLoop (hE.previews.previewIdentity decl) decl i) hp hget
  obtain rfl : i = a := by
    rw [List.getElem?_range hi] at ha
    exact Option.some.inj ha
  exact ⟨_, u, v, hget, h.trans _ _ _ hcount hu, hr⟩

end Deployment
end ResourceTemplate
