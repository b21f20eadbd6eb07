import ResourceTemplate.Proofs.Deployment.Readings
import ResourceTemplate.Proofs.Expander.Nesting
import ResourceTemplate.Proofs.Expander.Preparation
import ResourceTemplate.Proofs.Template.Respelling

namespace ResourceTemplate

namespace Expander

/-- Whether a template comes to another: an inline template of one of its declarations, or one that a body might
link to. -/
def ComesTo (x : Expander) (t t' : Template) : Prop :=
  ∃ decl ∈ t.resources, isDeployment decl = true ∧ ∃ body template,
    x.availableTemplate body (takeTemplate decl.body).2 = .ok template ∧ Template.ofJson template = .ok t'

/-- Whether two answers for nested deployments are the same for the templates that a template comes to. -/
def AnswersAlike (x : Expander) (t : Template) (nested nested' : Nested) : Prop :=
  ∀ t', x.ComesTo t t' → nested' t' = nested t'

theorem AnswersAlike.refl (x : Expander) (t : Template) (nested : Nested) : x.AnswersAlike t nested nested :=
  fun _ _ => rfl

variable {x : Expander} {nested nested' : Nested} {d : Deployment} {decl : ResourceDeclaration}

theorem expandNested_alike (hn : x.AnswersAlike d.template nested nested') (hd : decl ∈ d.template.resources)
    (hdeployment : isDeployment decl = true) (identity : ResourceIdentity) (body : Entries Json) :
    x.expandNested nested' d decl identity body (takeTemplate decl.body).2 =
      x.expandNested nested d decl identity body (takeTemplate decl.body).2 := by
  have htemplate {body : Entries Json} {template : Json}
      (ha : x.availableTemplate body (takeTemplate decl.body).2 = .ok template) :
      expandTemplate nested' d identity body template = expandTemplate nested d identity body template := by
    unfold expandTemplate
    cases ht : Template.ofJson template with
    | error e => rfl
    | ok t =>
      have hrun (identity : DeploymentIdentity) (values : Entries Json) :
          runNested nested' t identity values = runNested nested t identity values := by
        unfold runNested
        rw [hn t ⟨decl, hd, hdeployment, _, _, ha, ht⟩]
      change (runNested nested' t _ _ >>= _) = (runNested nested t _ _ >>= _)
      rw [hrun]
  unfold expandNested
  extract_lets full
  funext s
  change outcome _ s = outcome _ s
  rw [outcome_bind, outcome_bind]
  obtain ⟨template, ha, ho⟩ | ⟨reason, u, ha, ho⟩ :=
    x.outcome_templateOf d decl identity.name full (takeTemplate decl.body).2 s
  · rw [ho]
    dsimp only
    rw [htemplate ha]
  · rw [ho]

section
variable {R : Reading} {raw : Json} (h : d.Alike R raw)
include h

theorem holds_alike {condition : Option Json} (hc : ∀ c, condition = some c → c ∈ d.template.evaluated)
    (l : Ledger) (pointer : String) :
    @holds R (d.withRaw raw) l pointer condition = @holds .standard d l pointer condition := by
  unfold holds
  cases condition with
  | none => rfl
  | some c =>
    dsimp only
    rw [h.eval (hc c rfl)]

section
variable (hd : decl ∈ d.template.resources)
include hd

/-! Dependencies. -/

theorem dependencyTextsFrom_alike (l : Ledger) (pointer : String) (i : Nat) {entries : List Json}
    (he : entries ⊆ decl.dependsOn) :
    @dependencyTextsFrom R (d.withRaw raw) l pointer i entries = @dependencyTextsFrom .standard d l pointer i entries := by
  induction entries generalizing i with
  | nil => rfl
  | cons entry entries ih =>
    obtain ⟨hentry, hentries⟩ := List.cons_subset.mp he
    have hv : entry ∈ d.template.evaluated :=
      Template.mem_evaluated_of_resource hd (by simp [ResourceDeclaration.evaluated, hentry])
    unfold dependencyTextsFrom dependencyText
    rw [h.eval hv, ih _ hentries]

theorem dependencies_alike (l : Ledger) :
    @dependencies R (d.withRaw raw) l decl = @dependencies .standard d l decl := by
  have htexts : @dependencyTexts R (d.withRaw raw) l decl = @dependencyTexts .standard d l decl := by
    unfold dependencyTexts
    rw [dependencyTextsFrom_alike h hd l _ 0 (List.Subset.refl _)]
    cases hc : decl.copy with
    | none => rfl
    | some copy =>
      dsimp only
      rw [h.evalCopyCount hd hc]
  unfold dependencies
  rw [htexts]
  rfl

/-! Instances. -/

section
variable (hn : x.AnswersAlike d.template nested nested')
include hn

theorem expandActive_alike (l : Ledger) (dependsOn : List String) (index : Option Nat) :
    @expandActive R x nested' (d.withRaw raw) l dependsOn decl index =
      @expandActive .standard x nested d l dependsOn decl index := by
  have hv := h.evalObject (Template.mem_evaluated_of_resource hd List.mem_cons_self) l decl.pointer
  unfold expandActive
  cases hdeployment : isDeployment decl with
  | false =>
    rw [hdeployment, if_neg Bool.false_ne_true] at hv
    simp only [Bool.false_eq_true, if_false]
    rw [hv]
    rfl
  | true =>
    rw [hdeployment, if_pos rfl] at hv
    simp only [if_true]
    rw [hv]
    simp only [← expandNested_alike hn hd hdeployment]
    rfl

theorem expandInstances_alike (l : Ledger) (dependsOn : List String) :
    @expandInstances R x nested' (d.withRaw raw) l dependsOn decl =
      @expandInstances .standard x nested d l dependsOn decl := by
  have hinstance (index : Option Nat) : @expandInstance R x nested' (d.withRaw raw) l dependsOn decl index =
      @expandInstance .standard x nested d l dependsOn decl index := by
    have hc : ∀ c, decl.condition = some c → c ∈ d.template.evaluated := fun c hc =>
      Template.mem_evaluated_of_resource hd (by simp [ResourceDeclaration.evaluated, hc])
    unfold expandInstance
    rw [holds_alike h hc, expandActive_alike h hd hn, h.previewIdentity hd]
  unfold expandInstances
  simp only [hinstance]
  cases hc : decl.copy with
  | none => rfl
  | some copy =>
    dsimp only
    rw [h.evalCopyCount hd hc]

theorem settle_alike (plan : Plan) :
    @settle R x nested' (d.withRaw raw) plan decl = @settle .standard x nested d plan decl := by
  unfold settle tryDeclaration expandDeclaration
  simp only [expandInstances_alike h hd hn]
  rfl

end
end

theorem plan_alike {l : Ledger} (hl : l.declarations = d.template.resources) :
    @Expander.plan R (d.withRaw raw) l = @Expander.plan .standard d l := by
  unfold Expander.plan
  rw [mapM_congr fun decl hd => by rw [dependencies_alike h (hl ▸ hd) l]]

/-! Outputs. -/

theorem evalOutput_alike (l : Ledger) (pointer : String) {o : OutputDefinition} (ho : o ∈ d.template.outputs) :
    @evalOutput R (d.withRaw raw) l pointer o = @evalOutput .standard d l pointer o := by
  have hmem {v : Json} (hv : v ∈ o.evaluated) : v ∈ d.template.evaluated :=
    Template.mem_evaluated_of_output ho hv
  have hvalue : @outputValue R (d.withRaw raw) l pointer o = @outputValue .standard d l pointer o := by
    unfold outputValue
    cases hc : o.copy with
    | some copy =>
      dsimp only
      unfold copyOutput
      rw [h.evalCount (hmem (by simp [OutputDefinition.evaluated, hc])),
        h.eval (hmem (by simp [OutputDefinition.evaluated, hc]))]
    | none =>
      cases hv : o.value with
      | none => rfl
      | some v =>
        dsimp only
        rw [h.eval (hmem (by simp [OutputDefinition.evaluated, hv]))]
  unfold evalOutput
  rw [hvalue, holds_alike h fun c hc => hmem (by simp [OutputDefinition.evaluated, hc])]

theorem evalOutputs_alike (acc : Entries Json) {os : List OutputDefinition} (ho : os ⊆ d.template.outputs) :
    @evalOutputs R (d.withRaw raw) acc os = @evalOutputs .standard d acc os := by
  induction os generalizing acc with
  | nil => rfl
  | cons o os ih =>
    obtain ⟨ho, hos⟩ := List.cons_subset.mp ho
    have hrest := fun acc => ih acc hos
    unfold evalOutputs
    simp only [evalOutput_alike h _ _ ho, hrest]
    rfl

end

/-! Passes. -/

/-- The accord of steps that do the same where the declarations are those of a template, and keep them. -/
def declaring (ds : List ResourceDeclaration) : Accord ExpandError Progress :=
  .between fun p q => p = q ∧ p.ledger.declarations = ds

theorem declaring_of_eq {ds : List ResourceDeclaration} {α : Type} {m n : ExpandM α} (hmn : n = m)
    (hk : ∀ p, (outcome m p).2.ledger.declarations = p.ledger.declarations) : (declaring ds).Agree m n := by
  subst hmn
  rintro p _ ⟨rfl, hp⟩
  exact ⟨rfl, rfl, (hk p).trans hp⟩

section
variable {R : Reading} {raw : Json} (h : d.Alike R raw) (hn : x.AnswersAlike d.template nested nested')
include h hn

theorem settleAt_alike (plan : Plan) (i : Nat) :
    (declaring d.template.resources).Agree (@settleAt .standard x nested d plan i)
      (@settleAt R x nested' (d.withRaw raw) plan i) := by
  rintro p _ ⟨rfl, hp⟩
  unfold settleAt
  rw [outcome_bind, outcome_bind, outcome_get]
  dsimp only
  cases hdecl : p.ledger.declarations[i]? with
  | none => exact ⟨rfl, rfl, hp⟩
  | some decl =>
    obtain ⟨r, q, ht, hs⟩ := settle_turn x nested d plan decl p
    dsimp only
    rw [settle_alike h (hp ▸ List.mem_of_getElem? hdecl) hn, hs]
    exact ⟨rfl, rfl, ht.declarations.trans hp⟩

theorem pass_alike (plan : Plan) (is : List Nat) :
    (declaring d.template.resources).Agree (@pass .standard x nested d plan is)
      (@pass R x nested' (d.withRaw raw) plan is) := by
  induction is with
  | nil => exact .pure _
  | cons i is ih =>
    rw [@pass_cons .standard, @pass_cons R]
    exact .bind (settleAt_alike h hn plan i) fun settled => ih.bind fun deferred => .pure _

theorem passes_alike (plan : Plan) (fuel : Nat) (is : List Nat) :
    (declaring d.template.resources).Agree (@passes .standard x nested d plan fuel is)
      (@passes R x nested' (d.withRaw raw) plan fuel is) := by
  induction fuel generalizing is with
  | zero => cases is <;> exact .pure _
  | succ fuel ih =>
    cases is with
    | nil => exact .pure _
    | cons i is =>
      unfold passes
      refine .bind (pass_alike h hn plan (i :: is)) fun deferred => .ite ?_ (ih deferred)
      refine .bind (declaring_of_eq rfl fun _ => rfl) fun p => ?_
      exact .bind (declaring_of_eq rfl fun _ => rfl) fun _ => ih deferred

end

/-! Expansions. -/

section
variable {R : Reading} {raw : Json} (h : d.Alike R raw)
include h

theorem learnAll_alike {decls : List ResourceDeclaration} (hd : decls ⊆ d.template.resources) :
    (declaring d.template.resources).Agree (decls.forM (@learnIdentities .standard d))
      (decls.forM (@learnIdentities R (d.withRaw raw))) := by
  induction decls with
  | nil => exact .pure _
  | cons decl decls ih =>
    obtain ⟨hdecl, hdecls⟩ := List.cons_subset.mp hd
    refine .bind (declaring_of_eq ?_ fun p => ?_) fun _ => ih hdecls
    · unfold learnIdentities
      simp only [h.previewIdentities hdecl]
    · unfold learnIdentities
      rw [outcome_bind, outcome_get]
      dsimp only
      rw [outcome_bind, ExpandM.outcome_onScope]
      cases (outcome (@Deployment.previewIdentities .standard d p.ledger decl) p.scope).1 <;> rfl

theorem run_alike (hn : x.AnswersAlike d.template nested nested') (s : Scope) :
    outcome (@run R x nested' (d.withRaw raw)) (.start s d.template.resources) =
      outcome (@run .standard x nested d) (.start s d.template.resources) := by
  have hdeclare : (declaring d.template.resources).Agree (ExpandM.change declareSymbols)
      (ExpandM.change declareSymbols) := by
    refine declaring_of_eq rfl fun p => ?_
    rw [ExpandM.outcome_change]
    unfold declareSymbols
    cases p.ledger.declarations.foldlM declareSymbol p.ledger.symbols <;> rfl
  have hplan : (declaring d.template.resources).Agree
      (do ExpandM.onScope (@Expander.plan .standard d (← get).ledger))
      (do ExpandM.onScope (@Expander.plan R (d.withRaw raw) (← get).ledger)) := by
    rintro p _ ⟨rfl, hp⟩
    rw [outcome_bind, outcome_bind, outcome_get]
    dsimp only
    rw [plan_alike h hp]
    exact ⟨rfl, rfl, hp⟩
  have hrun : (declaring d.template.resources).Agree (@run .standard x nested d)
      (@run R x nested' (d.withRaw raw)) := by
    have hlearn := learnAll_alike h (List.Subset.refl d.template.resources)
    have hsettle := hplan.bind fun plan =>
      (passes_alike h hn plan plan.order.length plan.order).bind fun _ =>
        declaring_of_eq (evalOutputs_alike h [] (List.Subset.refl _)) fun p =>
          congrArg Ledger.declarations (evalOutputs_keeps rfl).2
    rw [bind_assoc, bind_assoc] at hsettle
    exact .bind hdeclare fun _ => .bind hlearn fun _ => hsettle
  obtain ⟨hr, hs, -⟩ := hrun (.start s d.template.resources) _ ⟨rfl, rfl⟩
  exact Prod.ext hr hs.symm

end

theorem create_withRaw (t : Template) (raw : Json) (o : Options) (identity : DeploymentIdentity)
    (values : Entries Json) (s : Scope) : outcome (Deployment.create (t.withRaw raw) o identity values) s =
      ((outcome (Deployment.create t o identity values) s).1.map (·.withRaw raw),
        (outcome (Deployment.create t o identity values) s).2) := by
  have htake (acc : Entries Json) : Deployment.takeSupplied (t.withRaw raw) identity.name acc values =
      Deployment.takeSupplied t identity.name acc values := by
    induction values generalizing acc with
    | nil => rfl
    | cons e values ih =>
      have hp : (t.withRaw raw).parameter? e.1 = t.parameter? e.1 := rfl
      unfold Deployment.takeSupplied
      simp only [ih, hp]
  unfold Deployment.create
  rw [htake, outcome_bind, outcome_bind]
  rcases outcome (Deployment.takeSupplied t identity.name [] values) s with ⟨e | supplied, u⟩ <;> rfl

/-- Expansions of a template are the same if the deployments of it are alike, and the answers for those nested in
them. -/
theorem expandWith_alike {R : Reading} {t : Template} {raw : Json}
    (h : ∀ d : Deployment, d.template = t → d.Alike R raw) (hn : x.AnswersAlike t nested nested')
    (identity : DeploymentIdentity) (values : Entries Json) (log : List Diagnostic) :
    @expandWith R x nested' (t.withRaw raw) identity values log =
      @expandWith .standard x nested t identity values log := by
  have hcreate := create_withRaw t raw x.options identity values { log }
  unfold outcome at hcreate
  unfold expandWith
  rw [hcreate]
  cases ho : (Deployment.create t x.options identity values).run.run { log } with
  | mk r s =>
    cases r with
    | error e => rfl
    | ok d =>
      obtain ⟨rfl, -, -⟩ := create_ok ho
      have hrun := run_alike (h d rfl) hn s
      have hresources : (d.template.withRaw raw).resources = d.template.resources := rfl
      unfold outcome at hrun
      dsimp only [Except.map]
      rw [hresources, hrun]

/-- An expansion reads as expressions what is written in the templates of its tree, and nothing else: with another
reading of strings that reads this alike it is the same, whatever that reading makes of the strings that evaluation
gives, of the values of callers and of the names and ids of resources. -/
theorem expandAt_readBy {R : Reading} {depth : Nat} {t : Template}
    (h : ∀ t', Relation.ReflTransGen x.ComesTo t t' → t'.ReadBy R) (identity : DeploymentIdentity)
    (values : Entries Json) (log : List Diagnostic) :
    @expandAt R x depth t identity values log = @expandAt .standard x depth t identity values log := by
  have halike {t : Template} (ht : t.ReadBy R) : ∀ d : Deployment, d.template = t → d.Alike R t.raw := by
    rintro d rfl
    exact d.alike_of_readBy ht
  induction depth generalizing t identity values log with
  | zero => exact expandWith_alike (halike (h t .refl)) (.refl x t _) identity values log
  | succ depth ih =>
    refine expandWith_alike (halike (h t .refl)) (fun t' ht' => ?_) identity values log
    have htree : ∀ u, Relation.ReflTransGen x.ComesTo t' u → u.ReadBy R := fun u hu => h u (.head ht' hu)
    exact funext fun identity => funext fun values => funext fun log => ih htree identity values log

end Expander
end ResourceTemplate

/-!
Expansions of templates that are respelled. An expansion does not depend on the text of its template, unless some
expression shows it, so that the keys that steer it are the same in any case. The keys of the body are not.
-/

namespace ResourceTemplate

namespace Expander

variable {x : Expander}

/-- An expansion is the same however the text of its template was given, if nothing that it evaluates shows the
template as it was given. -/
theorem expandWith_withRaw {nested : Nested} {t : Template} (h : t.Unquoted) (raw : Json) (identity : DeploymentIdentity)
    (values : Entries Json) (log : List Diagnostic) :
    x.expandWith nested (t.withRaw raw) identity values log = x.expandWith nested t identity values log :=
  expandWith_alike (fun d hd => d.alike_of_unquoted (hd ▸ h) raw) (.refl x t nested) identity values log

/-- The keys that steer the expansion of declarations, those nested in others included, are the same in any case. A
template that is respelled is malformed in the same way, or it is read as the same template; if nothing that it
evaluates shows the template as it was given, every expansion of it is the same, as a root or nested in others:
the ids, bodies and dependencies of its resources in their order, with those nested in it, its outputs, symbols,
failures and diagnostics. -/
theorem expandAt_respelled {v v' : Json} (hv : Template.Respells v v') :
    Template.ofJson v' = (Template.ofJson v).map (·.withRaw v') ∧
    ∀ t, Template.ofJson v = .ok t → t.Unquoted →
      ∀ (x : Expander) (depth : Nat) (identity : DeploymentIdentity) (values : Entries Json) (log : List Diagnostic),
        x.expandAt depth (t.withRaw v') identity values log = x.expandAt depth t identity values log := by
  refine ⟨Template.ofJson_respelled hv, fun t _ h x depth identity values log => ?_⟩
  rw [expandAt_eq]
  exact expandWith_withRaw h v' identity values log

def steered (copy condition dependsOn existing resources : String) : Json := .obj
  [("resources", .arr
    [.obj [("type", .str "A/b"), ("name", .str "x"), (condition, .bool true),
      (resources, .arr
        [.obj [("type", .str "c"), ("name", .str "[format('y{0}', copyIndex())]"),
          (copy, .obj [("name", .str "ys"), ("count", .num (.int 2))]), (dependsOn, .arr [.str "z"])]])],
     .obj [("type", .str "A/d"), ("name", .str "z"), (existing, .bool true)]])]

def steeredPlainly : Json := steered "copy" "condition" "dependsOn" "existing" "resources"

def steeredOtherwise : Json := steered "Copy" "CONDITION" "dependson" "Existing" "Resources"

theorem respells_steered : Template.Respells steeredPlainly steeredOtherwise := by
  refine .intro (.cons ⟨rfl, .inr ⟨by decide, .listed (.cons ?_ (.cons ?_ .nil))⟩⟩ .nil)
  · refine .declaration (by decide +kernel) (.cons (.same _) (.cons (.same _) (.cons ?_ (.cons ?_ .nil))))
    · exact .steering _ (by decide +kernel) (by decide +kernel)
    · refine .nested (by decide +kernel) (by decide +kernel) (.cons ?_ .nil)
      refine .declaration (by decide +kernel) (.cons (.same _) (.cons (.same _) (.cons ?_ (.cons ?_ .nil))))
      · exact .steering _ (by decide +kernel) (by decide +kernel)
      · exact .steering _ (by decide +kernel) (by decide +kernel)
  · refine .declaration (by decide +kernel) (.cons (.same _) (.cons (.same _) (.cons ?_ .nil)))
    exact .steering _ (by decide +kernel) (by decide +kernel)

theorem expandAt_respelled_steered :
    ∃ t e log, Template.ofJson steeredPlainly = .ok t ∧
      Template.ofJson steeredOtherwise = .ok (t.withRaw steeredOtherwise) ∧
      small.expand t [] = (.ok e, log) ∧
      small.expand (t.withRaw steeredOtherwise) [] = (.ok e, log) ∧
      e.resources.length = 3 := by
  have hc : (Template.ofJson steeredPlainly).toOption.any fun t =>
      t.functions.isEmpty &&
      (t.evaluated.all fun v => v.calls.all fun c => decide (c.ns = none → Name.fold c.name ∉ ["deployment"])) &&
      (small.expand t []).1.toOption.any fun e => e.resources.length = 3 := by
    decide +kernel
  obtain ⟨t, ht, hc⟩ := (Option.any_eq_true _ _).mp hc
  simp only [Bool.and_eq_true, List.all_eq_true, decide_eq_true_eq, List.isEmpty_iff] at hc
  obtain ⟨⟨hf, hcalls⟩, hc⟩ := hc
  obtain ⟨e, he, hlength⟩ := (Option.any_eq_true _ _).mp hc
  have hunquoted : t.Unquoted := fun v hv => .of_functions (by simp [hf]) (hcalls v hv)
  obtain ⟨hread, hexpand⟩ := expandAt_respelled respells_steered
  rw [toOption_eq_some] at ht he
  refine ⟨t, e, (small.expand t []).2, ht, by rw [hread, ht]; rfl, Prod.ext he rfl, ?_, of_decide_eq_true hlength⟩
  exact (hexpand t ht hunquoted small _ _ [] []).trans (Prod.ext he rfl)

/-- A resource that exists and an output that reads it, with the key of its properties as it is spelled. -/
def propertied (properties : String) : Json := .obj
  [("languageVersion", .str "2.0"),
   ("resources", .obj
    [("x", .obj [("existing", .bool true), ("type", .str "A/b"), ("apiVersion", .str "1"), ("name", .str "x"),
      (properties, .obj [("a", .num (.int 1))])])]),
   ("outputs", .obj [("v", .obj [("type", .str "int"), ("value", .str "[reference('x').a]")])])]

/-- The expansion of such a template: the integer that is read, and how much fails. -/
def readsProperty (properties : String) : Option (Option Int × Nat) := do
  let t ← (Template.ofJson (propertied properties)).toOption
  let e ← (small.expand t []).1.toOption
  return ((e.outputs.get? "v").bind Json.int64?, e.failures.length)

/-- The properties of a resource are not found under another case of their key: what refers to them fails. -/
theorem expand_misses_properties :
    Name.same "properties" "Properties" = true ∧ readsProperty "properties" = some (some 1, 0) ∧
      readsProperty "Properties" = some (none, 1) := by
  decide +kernel

end Expander
end ResourceTemplate
