import ResourceTemplate.Deployment.Preview
import ResourceTemplate.Proofs.Expr.Evaluation
import ResourceTemplate.Proofs.Outcome

namespace ResourceTemplate

abbrev Lasting {α : Type} (r : Except ExpandError α) : Prop :=
  Fails (fun e => e.isDefinite = true) r

theorem Lasting.of_definite {α : Type} {pointer : String} {r : Except ExprError α} (h : Definite r) :
    Lasting (r.mapError (.expression pointer)) := by
  intro e he
  cases r with
  | error e' =>
    cases he
    exact h e' rfl
  | ok a => cases he

/-- A discipline of steps on a scope that those obey which obey another inside an expression. -/
structure Discipline.Surrounds (T : Discipline ExpandError Scope) (S : Discipline ExprError Scope) :
    Prop where
  inside : S.Evaluates
  lift {α : Type} {r : Except ExpandError α} : Lasting r → T.Obeys (ScopeM.lift r)
  report (deployment pointer : String) (x : Diagnostic) : T.Obeys (ScopeM.report deployment pointer x)
  atPlace {α : Type} {m : EvalM Scope α} (pointer : String) :
    S.Obeys m → T.Obeys (ScopeM.atPlace pointer m)
  withLoop {α : Type} {m : ScopeM α} (name : String) (i : Nat) :
    T.Obeys m → T.Obeys (ScopeM.withLoop name i m)
  attempt {α : Type} {m : ScopeM α} : T.Obeys m → T.Obeys (ScopeM.attempt m)

/-- An accord of steps on a scope to which those belong, at places that are near each other, that belong to
another inside an expression. -/
structure Accord.Surrounds (B : Accord ExpandError Scope) (A : Accord ExprError Scope)
    (near : String → String → Prop) : Prop where
  inside : A.Evaluates
  append {p q : String} (text : String) : near p q → near (p ++ text) (q ++ text)
  lift {α : Type} {f : String → Except ExpandError α} {p q : String} : near p q →
    (∀ p, Lasting (f p)) → (∀ p q, (f p).toOption = (f q).toOption) →
    B.Agree (ScopeM.lift (f p)) (ScopeM.lift (f q))
  atPlace {α : Type} {m n : EvalM Scope α} {p q : String} : near p q → A.Agree m n →
    B.Agree (ScopeM.atPlace p m) (ScopeM.atPlace q n)
  withLoop {α : Type} {m n : ScopeM α} (name : String) (i : Nat) : B.Agree m n →
    B.Agree (ScopeM.withLoop name i m) (ScopeM.withLoop name i n)

variable {S : Discipline ExprError Scope} {T : Discipline ExpandError Scope}
  {A : Accord ExprError Scope} {B : Accord ExpandError Scope} {near : String → String → Prop}
  {C : Callees}

namespace Discipline.Surrounds

variable {α : Type}

theorem throw (h : T.Surrounds S) {e : ExpandError} (he : e.isDefinite = true) :
    T.Obeys (throw e : ScopeM α) :=
  h.lift (Fails.error.mpr he)

theorem alone (h : T.Surrounds S) : T.alone.Surrounds S.alone Eq where
  inside := h.inside.alone
  append _ hpq := congrArg (· ++ _) hpq
  lift {α f p q} hpq hf _ := by
    subst hpq
    exact ⟨rfl, h.lift (hf p)⟩
  atPlace {α m n p q} hpq hm := by
    obtain ⟨rfl, hm⟩ := hm
    subst hpq
    exact ⟨rfl, h.atPlace p hm⟩
  withLoop {α m n} name i hm := by
    obtain ⟨rfl, hm⟩ := hm
    exact ⟨rfl, h.withLoop name i hm⟩

end Discipline.Surrounds

theorem Accord.Surrounds.overLoop {α : Type} (hB : B.Surrounds A near) {m n : ScopeM α}
    (hm : B.Agree m n) (name : String) (count : Nat) :
    B.Agree (ScopeM.overLoop name count m) (ScopeM.overLoop name count n) :=
  .mapM (fun i => hB.withLoop name i hm) _

namespace Value

section
variable {maxCount : Nat} {f g strings : Strings} {p q : String} {P : String → Prop}

theorem lasting_count (maxCount : Nat) (pointer : String) (v : Json) :
    Lasting (count maxCount pointer v) := by
  unfold count
  split
  · exact Fails.error.mpr rfl
  · exact .ite (.ok _) (Fails.error.mpr rfl)

theorem toOption_count (maxCount : Nat) (v : Json) (p q : String) :
    (count maxCount p v).toOption = (count maxCount q v).toOption := by
  unfold count
  split
  · rfl
  · split <;> rfl

theorem lasting_copyParts (es : Entries Json) (pointer : String) : Lasting (copyParts pointer es) := by
  unfold copyParts
  dsimp only
  repeat' split
  all_goals first | exact .ok _ | exact Fails.error.mpr rfl

theorem toOption_copyParts (es : Entries Json) (p q : String) :
    (copyParts p es).toOption = (copyParts q es).toOption := by
  unfold copyParts
  dsimp only
  repeat' split
  all_goals rfl

def Strings.Agree (B : Accord ExpandError Scope) (near : String → String → Prop) (P : String → Prop)
    (f g : Strings) : Prop :=
  ∀ p q, near p q → ∀ s, P s → B.Agree (f p s) (g q s)

def Strings.Obey (T : Discipline ExpandError Scope) (strings : Strings) : Prop :=
  ∀ pointer s, T.Obeys (strings pointer s)

theorem Strings.Obey.agree (hs : strings.Obey T) : Strings.Agree T.alone Eq P strings strings := by
  rintro p q rfl s _
  exact ⟨rfl, hs p s⟩

theorem agree_key (hs : Strings.Agree B near P f g) (hpq : near p q) (k : String)
    (hk : P k) : B.Agree (key f p k) (key g q k) :=
  .ite ((hs p q hpq k hk).bind fun _ => .pure _) (.pure _)

mutual

theorem agree_eval (hB : B.Surrounds A near) (hs : Strings.Agree B near P f g) {p q : String}
    (hpq : near p q) : (v : Json) → (∀ s ∈ v.texts, P s) → B.Agree (eval maxCount f p v) (eval maxCount g q v)
  | .str s, hc => hs p q hpq s (hc s (List.mem_singleton_self s))
  | .arr items, hc => (agree_evalItems hB hs hpq 0 items hc).bind fun _ => .pure _
  | .obj members, hc => (agree_evalMembers hB hs hpq [] members hc).bind fun _ => .pure _
  | .null, _ => .pure _
  | .bool _, _ => .pure _
  | .num _, _ => .pure _

theorem agree_evalItems (hB : B.Surrounds A near) (hs : Strings.Agree B near P f g) {p q : String}
    (hpq : near p q) (i : Nat) : (vs : List Json) → (∀ s ∈ itemsTexts vs, P s) →
    B.Agree (evalItems maxCount f p i vs) (evalItems maxCount g q i vs)
  | [], _ => .pure _
  | v :: vs, hc => by
    obtain ⟨hv, hvs⟩ := List.forall_mem_append.mp hc
    have hi := hB.append (String.ofList (Integer.natText i)) (hB.append "/" hpq)
    exact (agree_eval hB hs hi v hv).bind fun _ =>
      (agree_evalItems hB hs hpq (i + 1) vs hvs).bind fun _ => .pure _

theorem agree_evalMembers (hB : B.Surrounds A near) (hs : Strings.Agree B near P f g) {p q : String}
    (hpq : near p q) (acc : Entries Json) : (es : List (String × Json)) →
    (∀ s ∈ membersTexts es, P s) →
    B.Agree (evalMembers maxCount f p acc es) (evalMembers maxCount g q acc es)
  | [], _ => .pure _
  | (k, v) :: rest, hc => by
    obtain ⟨hk, hc⟩ := List.forall_mem_cons.mp hc
    obtain ⟨hv, hrest⟩ := List.forall_mem_append.mp hc
    have hi := hB.append k (hB.append "/" hpq)
    unfold evalMembers
    exact .ite
      ((agree_evalCopies hB hs hi acc v hv).bind fun _ => agree_evalMembers hB hs hpq _ rest hrest)
      ((agree_key hs hi k hk).bind fun _ => (agree_eval hB hs hi v hv).bind fun _ =>
        agree_evalMembers hB hs hpq _ rest hrest)

theorem agree_evalCopies (hB : B.Surrounds A near) (hs : Strings.Agree B near P f g) {p q : String}
    (hpq : near p q) (acc : Entries Json) : (v : Json) → (∀ s ∈ v.texts, P s) →
    B.Agree (evalCopies maxCount f p acc v) (evalCopies maxCount g q acc v)
  | .arr entries, hc => agree_evalCopyList hB hs hpq acc entries hc
  | .str _, _ => .pure _
  | .obj _, _ => .pure _
  | .null, _ => .pure _
  | .bool _, _ => .pure _
  | .num _, _ => .pure _

theorem agree_evalCopyList (hB : B.Surrounds A near) (hs : Strings.Agree B near P f g) {p q : String}
    (hpq : near p q) (acc : Entries Json) : (vs : List Json) → (∀ s ∈ itemsTexts vs, P s) →
    B.Agree (evalCopyList maxCount f p acc vs) (evalCopyList maxCount g q acc vs)
  | [], _ => .pure _
  | v :: vs, hc => by
    obtain ⟨hv, hvs⟩ := List.forall_mem_append.mp hc
    exact (agree_evalCopy hB hs hpq v hv).bind fun _ => agree_evalCopyList hB hs hpq _ vs hvs

theorem agree_evalCopy (hB : B.Surrounds A near) (hs : Strings.Agree B near P f g) {p q : String}
    (hpq : near p q) : (v : Json) → (∀ s ∈ v.texts, P s) →
    B.Agree (evalCopy maxCount f p v) (evalCopy maxCount g q v)
  | .obj es, hc => by
    have hcount := hB.append "/count" hpq
    have hinput := hB.append "/input" hpq
    exact (hB.lift (f := fun p => copyParts p es) hpq (lasting_copyParts es)
      (toOption_copyParts es)).bind fun parts =>
        (agree_evalMember hB hs hcount parts.countKey es hc).bind fun v =>
          (hB.lift (f := fun p => count maxCount p v) hcount (fun p => lasting_count maxCount p v)
            (toOption_count maxCount v)).bind fun n =>
              (hB.overLoop (agree_evalMember hB hs hinput parts.inputKey es hc) parts.name n).bind
                fun _ => .pure _
  | .arr _, _ => agree_noEntry hB hpq
  | .str _, _ => agree_noEntry hB hpq
  | .null, _ => agree_noEntry hB hpq
  | .bool _, _ => agree_noEntry hB hpq
  | .num _, _ => agree_noEntry hB hpq

theorem agree_noEntry (hB : B.Surrounds A near) {p q : String} (hpq : near p q) :
    B.Agree (ScopeM.lift (.error (.malformedTemplate p "copy entry is missing 'name'")) :
        ScopeM (String × Json))
      (ScopeM.lift (.error (.malformedTemplate q "copy entry is missing 'name'"))) :=
  hB.lift (f := fun p => .error (.malformedTemplate p "copy entry is missing 'name'")) hpq
    (fun _ => Fails.error.mpr rfl) fun _ _ => rfl

theorem agree_evalMember (hB : B.Surrounds A near) (hs : Strings.Agree B near P f g) {p q : String}
    (hpq : near p q) (name : String) : (es : List (String × Json)) →
    (∀ s ∈ membersTexts es, P s) →
    B.Agree (evalMember maxCount f p name es) (evalMember maxCount g q name es)
  | [], _ => .pure _
  | (k, v) :: rest, hc => by
    obtain ⟨-, hc⟩ := List.forall_mem_cons.mp hc
    obtain ⟨hv, hrest⟩ := List.forall_mem_append.mp hc
    unfold evalMember
    exact .ite (agree_eval hB hs hpq v hv) (agree_evalMember hB hs hpq name rest hrest)

end

theorem obeys_eval (hT : T.Surrounds S) (hs : strings.Obey T) (pointer : String) (v : Json) :
    T.Obeys (eval maxCount strings pointer v) :=
  (agree_eval hT.alone (hs.agree (P := fun _ => True)) rfl v fun _ _ => trivial).2

theorem obeys_evalMembers (hT : T.Surrounds S) (hs : strings.Obey T) (pointer : String)
    (acc : Entries Json) (es : List (String × Json)) :
    T.Obeys (evalMembers maxCount strings pointer acc es) :=
  (agree_evalMembers hT.alone (hs.agree (P := fun _ => True)) rfl acc es fun _ _ => trivial).2

theorem obeys_evalCopy (hT : T.Surrounds S) (hs : strings.Obey T) (pointer : String) (v : Json) :
    T.Obeys (evalCopy maxCount strings pointer v) :=
  (agree_evalCopy hT.alone (hs.agree (P := fun _ => True)) rfl v fun _ _ => trivial).2

theorem obeys_evalCount (hT : T.Surrounds S) (hs : strings.Obey T) (pointer : String) (v : Json) :
    T.Obeys (evalCount maxCount strings pointer v) :=
  (obeys_eval hT hs pointer v).bind fun _ => hT.lift (lasting_count _ _ _)

end

theorem onHost_agree (hB : B.Surrounds A near) {h k : Host Scope} (hk : HostsAgree A C h k) :
    Strings.Agree B near C.Admits (onHost h) (onHost k) := fun _ _ hpq s hc =>
  .ite (hB.atPlace hpq (agree_templateString hB.inside hk s hc)) (.pure _)

theorem onHost_obey (hT : T.Surrounds S) {h : Host Scope} (hh : HostObeys S h) :
    (onHost h).Obey T := fun pointer s =>
  (onHost_agree (C := .all) hT.alone hh.agrees pointer pointer rfl s (Callees.cover_all _)).2

end Value

/-- A deployment with a ledger whose primitive steps obey a discipline: those that make identifiers and
remarks, find resources, keep parameters and variables, and end what is nested too deeply. -/
structure Deployment.Obeys (d : Deployment) (l : Ledger) (S : Discipline ExprError Scope)
    (T : Discipline ExpandError Scope) : Prop where
  surrounds : T.Surrounds S
  exhausted {α : Type} : S.Obeys (throw .callDepthExceeded : EvalM Scope α)
  newGuid : S.Obeys (Host.act d.newGuid)
  remark (text : String) : S.Obeys (Host.act fun s => ((), d.warn text s))
  resolve (view : ResourceValue → Json) (target : String) : S.Obeys (d.resolve l view target)
  parameterValue {eval : Evaluation} : (∀ pointer v, T.Obeys (eval pointer v)) →
    ∀ name, S.Obeys (d.parameterValue eval name)
  variableValue {eval : Evaluation} {evalCopy : String → Json → ScopeM (String × Json)} :
    (∀ pointer v, T.Obeys (eval pointer v)) → (∀ pointer v, T.Obeys (evalCopy pointer v)) →
    ∀ name, S.Obeys (d.variableValue eval evalCopy name)

theorem UserFunction.definite_bindParameters (qualified : String) (acc : Entries Json)
    (params : List (String × ParameterType)) (values : List Json) :
    Definite (bindParameters qualified acc params values) := by
  fun_induction bindParameters qualified acc params values with
  | case1 acc name type params v values h ih => exact ih
  | case2 => simp
  | case3 => exact .ok _

theorem Scope.definite_copyIndex (s : Scope) (loop : Option String) : Definite (s.copyIndex loop) := by
  unfold copyIndex
  dsimp only
  split
  · exact .ok _
  · exact Fails.error.mpr rfl

theorem definite_check (p : ParameterDefinition) (v : Json) : Definite (p.check v) := by
  unfold ParameterDefinition.check
  refine .ite (.ok _) (.ite (by simp) ?_)
  split
  · exact .ok _
  · exact .ite (.ok _) (by simp)

namespace Deployment

/-- To take the values of a caller is to check some and to report the others. -/
theorem obeys_create (hl : ∀ {α : Type} {r : Except ExpandError α}, Lasting r → T.Obeys (ScopeM.lift r))
    (hr : ∀ deployment pointer x, T.Obeys (ScopeM.report deployment pointer x)) (t : Template)
    (o : Options) (identity : DeploymentIdentity) (values : Entries Json) :
    T.Obeys (create t o identity values) := by
  have take (acc : Entries Json) : T.Obeys (takeSupplied t identity.name acc values) := by
    induction values generalizing acc with
    | nil => exact .pure _
    | cons e values ih =>
      unfold takeSupplied
      dsimp only
      split
      · exact (hr _ _ _).bind fun _ => ih _
      · exact (hl (Lasting.of_definite (definite_check _ _))).bind fun _ => ih _
  exact (take []).bind fun _ => .pure _

theorem lasting_resourceIdentity (i : DeploymentIdentity) (pointer type name : String)
    (scope resourceGroup subscriptionId : Option String) :
    Lasting ((i.resourceIdentity type name scope resourceGroup subscriptionId).mapError
      (.expression pointer)) := by
  apply Lasting.of_definite
  unfold DeploymentIdentity.resourceIdentity
  dsimp only
  split <;> simp [ResourceId.Fault.toExprError]

theorem lasting_identityText (decl : ResourceDeclaration) (body : Entries Json) (key : String) :
    Lasting (identityText decl body key) := by
  unfold identityText
  split
  · exact .ok _
  · exact Fails.error.mpr rfl

/-- To read an identity off an evaluated declaration needs no other resource. -/
theorem lasting_identityOf (d : Deployment) (decl : ResourceDeclaration) (body : Entries Json) :
    Lasting (d.identityOf decl body) :=
  (lasting_identityText decl body "type").bind fun _ =>
    (lasting_identityText decl body "name").bind fun _ => lasting_resourceIdentity _ _ _ _ _ _ _

/-- The steps that a deployment takes for the bodies of its functions belong to an accord: those that make
identifiers as far as these are selected. -/
structure BodyAccords (d : Deployment) (A : Accord ExprError Scope) (C : Callees) : Prop where
  evaluates : A.Evaluates
  newGuid : C.builtIn "newguid" → A.Agree (Host.act d.newGuid) (Host.act d.newGuid)
  remark (text : String) :
    A.Agree (Host.act fun s => ((), d.warn text s)) (Host.act fun s => ((), d.warn text s))

/-- The steps that a deployment takes for its expressions, with two ledgers, belong to an accord: those of
the functions that find resources or make identifiers as far as these are selected. -/
structure Accords (d : Deployment) (l k : Ledger) (A : Accord ExprError Scope) (C : Callees) : Prop
    extends d.BodyAccords A C where
  copyIndex (loop : Option String) :
    A.Agree (Host.ask fun s => s.copyIndex loop) (Host.ask fun s => s.copyIndex loop)
  resolve : C.builtIn "reference" ∨ C.builtIn "resourceinfo" →
    ∀ view target, A.Agree (d.resolve l view target) (d.resolve k view target)

namespace BodyAccords

variable {d : Deployment} {call call' : String → String → List Json → EvalM Scope Json}
  (h : d.BodyAccords A C)
include h

/-- The body of a function agrees if the functions that it calls do. -/
theorem bodyHost (hc : ∀ ns name, C.defined ns name → ∀ arguments,
      A.Agree (call ns name arguments) (call' ns name arguments)) (f : UserFunction)
    (arguments : Entries Json) :
    HostsAgree A C (f.bodyHost d call arguments) (f.bodyHost d call' arguments) where
  parameterValue name := h.evaluates.lift (by split <;> simp)
  variableValue _ := h.evaluates.throw rfl
  copyIndex _ := h.evaluates.throw rfl
  reference _ _ _ := h.evaluates.throw rfl
  resourceInfo _ _ := h.evaluates.throw rfl
  userFunction := hc
  deployment _ := .pure _
  newGuid := h.newGuid
  remark := h.remark
  read hf := hf.agree_read (fun _ _ => rfl) {}

theorem applyFunction {ns name : String}
    (hc : ∀ f, d.template.function? ns name = some f → C.Cover f.output.calls ∧
      ∀ ns name, C.defined ns name → ∀ arguments,
        A.Agree (call ns name arguments) (call' ns name arguments))
    (arguments : List Json) :
    A.Agree (d.applyFunction call ns name arguments) (d.applyFunction call' ns name arguments) := by
  have hA := h.evaluates
  unfold Deployment.applyFunction
  dsimp only
  cases hf : d.template.function? ns name with
  | none => exact hA.throw rfl
  | some f =>
    obtain ⟨hcover, hc⟩ := hc f hf
    refine .ite ((hA.throw rfl).bind fun _ => ?_) ?_
    all_goals
      exact (hA.lift (UserFunction.definite_bindParameters _ _ _ _)).bind fun bound =>
        (agree_evalValue hA (h.bodyHost hc f bound) f.output hcover).bind fun _ =>
          .ite (.pure _) (hA.throw rfl)

/-- Functions agree, however deep they call each other, if a selected one calls only such. -/
theorem callFunction (hx : A.Agree (throw .callDepthExceeded : EvalM Scope Json) (throw .callDepthExceeded))
    (hC : ∀ ns name f, C.defined ns name → d.template.function? ns name = some f →
      C.Cover f.output.calls) (depth : Nat) {ns name : String} (hn : C.defined ns name)
    (arguments : List Json) :
    A.Agree (d.callFunction depth ns name arguments) (d.callFunction depth ns name arguments) := by
  induction depth generalizing ns name arguments with
  | zero => exact hx
  | succ depth ih =>
    exact h.applyFunction (fun f hf => ⟨hC ns name f hn hf, fun _ _ => ih⟩) arguments

end BodyAccords

namespace Obeys

variable {d : Deployment} {l : Ledger} (h : d.Obeys l S T)
include h

theorem accords : d.Accords l l S.alone C where
  evaluates := h.surrounds.inside.alone
  copyIndex loop := ⟨rfl, h.surrounds.inside.ask fun s => s.definite_copyIndex loop⟩
  newGuid _ := ⟨rfl, h.newGuid⟩
  remark text := ⟨rfl, h.remark text⟩
  resolve _ view target := ⟨rfl, h.resolve view target⟩

/-- Functions of the template obey what the deployment obeys, however deep they call each other. -/
theorem callFunction (depth : Nat) (ns name : String) (arguments : List Json) :
    S.Obeys (d.callFunction depth ns name arguments) :=
  (h.accords.callFunction (C := .all) ⟨rfl, h.exhausted⟩ (fun _ _ _ _ _ => Callees.cover_all _) depth
    trivial arguments).2

theorem hostWith {parameter variableNamed : String → EvalM Scope Json}
    (hp : ∀ name, S.Obeys (parameter name)) (hv : ∀ name, S.Obeys (variableNamed name)) :
    HostObeys S (d.hostWith l parameter variableNamed) where
  parameterValue := hp
  variableValue := hv
  copyIndex loop := h.surrounds.inside.ask fun s => s.definite_copyIndex loop
  reference _ _ := h.resolve _ _
  resourceInfo _ := h.resolve _ _
  userFunction _ _ _ := h.callFunction _ _ _ _
  newGuid := h.newGuid
  remark := h.remark

theorem hostAt (depth : Nat) : HostObeys S (d.hostAt l depth) := by
  induction depth with
  | zero => exact h.hostWith (fun _ => h.exhausted) fun _ => h.exhausted
  | succ depth ih =>
    -- parameters and variables are evaluated one level below, with the same resources in sight
    have hs := Value.onHost_obey h.surrounds ih
    exact h.hostWith (h.parameterValue (Value.obeys_eval h.surrounds hs))
      (h.variableValue (Value.obeys_eval h.surrounds hs) (Value.obeys_evalCopy h.surrounds hs))

theorem strings : (Value.onHost (d.host l)).Obey T := Value.onHost_obey h.surrounds (h.hostAt _)

end Obeys

structure EvalObeys (d : Deployment) (l : Ledger) (S : Discipline ExprError Scope)
    (T : Discipline ExpandError Scope) : Prop where
  surrounds : T.Surrounds S
  eval (pointer : String) (v : Json) : T.Obeys (d.eval l pointer v)
  evalCount (pointer : String) (v : Json) : T.Obeys (d.evalCount l pointer v)
  evalObject (pointer : String) (members : Entries Json) : T.Obeys (d.evalObject l pointer members)

theorem EvalObeys.of_strings {d : Deployment} {l : Ledger} (hT : T.Surrounds S)
    (hs : (Value.onHost (d.host l)).Obey T) : d.EvalObeys l S T where
  surrounds := hT
  eval := Value.obeys_eval hT hs
  evalCount := Value.obeys_evalCount hT hs
  evalObject pointer members := Value.obeys_evalMembers hT hs pointer [] members

/-- What is evaluated in a deployment obeys what the primitive steps obey. -/
theorem Obeys.evalObeys {d : Deployment} {l : Ledger} (h : d.Obeys l S T) : d.EvalObeys l S T :=
  .of_strings h.surrounds h.strings

/-- A discipline of evaluations whose outcome is taken as a value, whatever it is. -/
structure Previews (d : Deployment) (l : Ledger) (T : Discipline ExpandError Scope) : Prop where
  eval (pointer : String) (v : Json) : T.Obeys (ScopeM.attempt (d.eval l pointer v))
  evalCount (pointer : String) (v : Json) : T.Obeys (ScopeM.attempt (d.evalCount l pointer v))
  evalObject (pointer : String) (members : Entries Json) :
    T.Obeys (ScopeM.attempt (d.evalObject l pointer members))
  report (pointer : String) (x : Diagnostic) : T.Obeys (d.report pointer x)
  withLoop {α : Type} {m : ScopeM α} (name : String) (i : Nat) :
    T.Obeys m → T.Obeys (ScopeM.withLoop name i m)

theorem EvalObeys.previews {d : Deployment} {l : Ledger} (h : d.EvalObeys l S T) : d.Previews l T where
  eval _ _ := h.surrounds.attempt (h.eval _ _)
  evalCount _ _ := h.surrounds.attempt (h.evalCount _ _)
  evalObject _ _ := h.surrounds.attempt (h.evalObject _ _)
  report _ _ := h.surrounds.report _ _ _
  withLoop := h.surrounds.withLoop

namespace Previews

variable {d : Deployment} {l : Ledger} (h : d.Previews l T)
include h

theorem overLoop {α : Type} {m : ScopeM α} (hm : T.Obeys m) (name : String) (count : Nat) :
    T.Obeys (ScopeM.overLoop name count m) :=
  .mapM (fun i => h.withLoop name i hm) _

theorem previewIdentity (decl : ResourceDeclaration) : T.Obeys (d.previewIdentity l decl) := by
  refine (h.evalObject _ _).bind fun r => ?_
  split
  · exact .pure _
  · exact .pure _

theorem previewIdentities (decl : ResourceDeclaration) : T.Obeys (d.previewIdentities l decl) := by
  unfold Deployment.previewIdentities
  split
  · exact (h.previewIdentity decl).bind fun _ => .pure _
  · refine (h.evalCount _ _).bind fun r => ?_
    split
    · exact .pure _
    · exact (h.overLoop (h.previewIdentity decl) _ _).bind fun _ => .pure _

end Previews
end Deployment
end ResourceTemplate
