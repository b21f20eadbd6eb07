import ResourceTemplate.Expander.Expand
import ResourceTemplate.Proofs.Deployment.Evaluation
import ResourceTemplate.Proofs.Template.Reading

namespace ResourceTemplate.Expander

variable {S : Discipline ExprError Scope} {T : Discipline ExpandError Scope} {d : Deployment} {l : Ledger}

section
variable (h : d.Previews l T)
include h

theorem obeys_dependencyText (pointer : String) (entry : Json) :
    T.Obeys (dependencyText d l pointer entry) := by
  refine (h.eval _ _).bind fun r => ?_
  split
  · exact .pure _
  · exact .pure _
  · exact .pure _

theorem obeys_dependencyTextsFrom (pointer : String) (i : Nat) (entries : List Json) :
    T.Obeys (dependencyTextsFrom d l pointer i entries) := by
  induction entries generalizing i with
  | nil => exact .pure _
  | cons entry entries ih =>
    exact (obeys_dependencyText h _ _).bind fun _ => (ih _).bind fun _ => .pure _

theorem obeys_dependencyTexts (decl : ResourceDeclaration) : T.Obeys (dependencyTexts d l decl) := by
  have once := obeys_dependencyTextsFrom h (dependsOnPointer decl) 0 decl.dependsOn
  unfold dependencyTexts
  refine .ite (.pure _) ?_
  dsimp only
  split
  · exact once.bind fun _ => .pure _
  · exact (h.evalCount _ _).bind fun _ => (h.overLoop once _ _).bind fun _ => .pure _

theorem obeys_dependencies (decl : ResourceDeclaration) : T.Obeys (dependencies d l decl) :=
  (obeys_dependencyTexts h decl).bind fun _ =>
    (Discipline.Obeys.forM (fun _ => .ite (h.report _ _) (.pure _)) _).bind fun _ => .pure _

/-- The plan of an expansion fails, if it does, because declarations depend on each other. -/
theorem obeys_plan (hc : ∀ labels, T.Obeys (throw (.cyclicDependency labels) : ScopeM Plan)) :
    T.Obeys (plan d l) := by
  refine (Discipline.Obeys.mapM (fun decl => (obeys_dependencies h decl).bind fun _ => .pure _) _).bind
    fun nodes => ?_
  split
  · exact .pure _
  · exact hc _

end

variable {x : Expander} {nested : Nested}

def Nested.Obeys (T : Discipline ExpandError Scope) (nested : Nested) : Prop :=
  ∀ t identity values, T.Obeys (runNested nested t identity values)

section
variable (h : d.EvalObeys l S T)
include h

theorem obeys_templateOf (decl : ResourceDeclaration) (name : String) (body : Entries Json)
    (inline : Option Json) : T.Obeys (x.templateOf d decl name body inline) := by
  unfold templateOf
  split
  · exact .pure _
  · split
    · exact .pure _
    · exact (h.surrounds.report _ _ _).bind fun _ => .pure _

theorem obeys_expandTemplate (hn : nested.Obeys T) (identity : ResourceIdentity)
    (body : Entries Json) (template : Json) :
    T.Obeys (expandTemplate nested d identity body template) :=
  (h.surrounds.lift fun _ he => Template.Malformed.isDefinite (Template.ofJson_fails _ _ he)).bind fun _ =>
    (hn _ _ _).bind fun _ => .pure _

theorem obeys_expandNested (hn : nested.Obeys T) (decl : ResourceDeclaration)
    (identity : ResourceIdentity) (body : Entries Json) (inline : Option Json) :
    T.Obeys (x.expandNested nested d decl identity body inline) := by
  unfold expandNested
  refine (obeys_templateOf h _ _ _ _).bind fun template => ?_
  split
  · exact .pure _
  · exact (obeys_expandTemplate h hn _ _ _).bind fun _ => .pure _

theorem obeys_holds (pointer : String) (condition : Option Json) :
    T.Obeys (holds d l pointer condition) := by
  unfold holds
  split
  · exact .pure _
  · refine (h.eval _ _).bind fun v => ?_
    split
    · exact .pure _
    · exact h.surrounds.throw rfl

omit h in
/-- An instance whose condition holds is made of what the members of its declaration are evaluated to. -/
theorem exists_expandActive_eq (x : Expander) (nested : Nested) (d : Deployment) (l : Ledger) (dependsOn : List String)
    (decl : ResourceDeclaration) (index : Option Nat) :
    ∃ k, x.expandActive nested d l dependsOn decl index =
      d.evalObject l decl.pointer (if isDeployment decl then takeTemplate decl.body else (decl.body, none)).1 >>= k ∧
      ∀ {S T}, d.EvalObeys l S T → nested.Obeys T → ∀ body, T.Obeys (k body) := by
  refine ⟨_, rfl, fun {S T} h hn body => ?_⟩
  refine (h.surrounds.lift (d.lasting_identityOf decl body)).bind fun identity => ?_
  refine .ite (.pure _) (.ite ?_ ?_)
  · exact (obeys_expandNested h hn _ _ _ _).bind fun _ => Discipline.Obeys.get.bind fun _ => .pure _
  · exact (Discipline.Obeys.pure _).bind fun _ => Discipline.Obeys.get.bind fun _ => .pure _

theorem obeys_expandActive (hn : nested.Obeys T) (dependsOn : List String)
    (decl : ResourceDeclaration) (index : Option Nat) :
    T.Obeys (x.expandActive nested d l dependsOn decl index) := by
  obtain ⟨k, hk, hobeys⟩ := x.exists_expandActive_eq nested d l dependsOn decl index
  rw [hk]
  exact (h.evalObject _ _).bind (hobeys h hn)

theorem obeys_expandInstance (hn : nested.Obeys T) (dependsOn : List String)
    (decl : ResourceDeclaration) (index : Option Nat) :
    T.Obeys (x.expandInstance nested d l dependsOn decl index) :=
  (obeys_holds h _ _).bind fun _ => .ite (obeys_expandActive h hn _ _ _)
    ((h.previews.previewIdentity decl).bind fun _ => .pure _)

theorem obeys_outputValue (pointer : String) (o : OutputDefinition) : T.Obeys (outputValue d l pointer o) := by
  unfold outputValue
  split
  · exact (h.evalCount _ _).bind fun _ => (h.previews.overLoop (h.eval _ _) _ _).bind fun _ => .pure _
  · exact h.eval _ _
  · exact .pure _

theorem obeys_evalOutput (pointer : String) (o : OutputDefinition) : T.Obeys (evalOutput d l pointer o) := by
  have hcheck (v : Json) : ∀ e, checkOutput pointer o v = .error e → e.isDefinite = true := by
    intro e he
    unfold checkOutput at he
    split at he
    · cases he
    · split at he
      · cases he
      · cases he
        rfl
  refine (obeys_holds h _ _).bind fun _ => .ite ?_ (.pure _)
  exact (obeys_outputValue h _ _).bind fun v => (h.surrounds.lift (hcheck v)).bind fun _ => .pure _

/-- The instances of a declaration obey what evaluation and the expansion of nested deployments do. -/
theorem obeys_expandInstances (hn : nested.Obeys T) (dependsOn : List String)
    (decl : ResourceDeclaration) : T.Obeys (x.expandInstances nested d l dependsOn decl) := by
  unfold expandInstances
  split
  · exact (obeys_expandInstance h hn _ _ _).bind fun _ => .pure _
  · exact (h.evalCount _ _).bind fun n =>
      .mapM (fun i => h.surrounds.withLoop _ i (obeys_expandInstance h hn _ _ _)) _

end

section
variable {U : Discipline ExpandError Progress} {plan : Plan}
  (h : ∀ decl, U.Obeys (x.settle nested d plan decl))
include h

theorem obeys_pass (is : List Nat) : U.Obeys (x.pass nested d plan is) := by
  induction is with
  | nil => exact .pure _
  | cons i is ih =>
    unfold pass
    refine Discipline.Obeys.get.bind fun p => ?_
    dsimp only
    split
    · exact (h _).bind fun _ => ih.bind fun _ => .pure _
    · exact (Discipline.Obeys.pure _).bind fun _ => ih.bind fun _ => .pure _

theorem obeys_passes (hw : ∀ l is, U.Obeys (throw (waitingError l is) : ExpandM PUnit)) (fuel : Nat)
    (is : List Nat) : U.Obeys (x.passes nested d plan fuel is) := by
  induction fuel generalizing is with
  | zero => cases is <;> exact .pure _
  | succ fuel ih =>
    cases is with
    | nil => exact .pure _
    | cons i is =>
      refine (obeys_pass h _).bind fun deferred => .ite ?_ (ih _)
      exact Discipline.Obeys.get.bind fun _ => (hw _ _).bind fun _ => ih _

end

end ResourceTemplate.Expander
