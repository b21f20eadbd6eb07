import ResourceTemplate.Proofs.Deployment.Requests

namespace ResourceTemplate

section

/-- An accord of steps on a scope that surrounds one of evaluations, and whose steps are part of these. -/
structure Accord.Encloses (B : Accord ExpandError Scope) (A : Accord ExprError Scope)
    (near : String → String → Prop) : Prop extends B.Surrounds A near where
  refl (p : String) : near p p
  toEval {α : Type} {m n : ScopeM α} : B.Agree m n → A.Agree m.toEval n.toEval

variable {A : Accord ExprError Scope} {B : Accord ExpandError Scope} {near : String → String → Prop}
  {C : Callees}

theorem Accord.same_encloses : (Accord.same ExpandError Scope).Encloses (Accord.same ExprError Scope) Eq where
  inside := ⟨fun _ => rfl⟩
  append text h := congrArg (· ++ text) h
  lift h _ _ := by
    subst h
    rfl
  atPlace h hm := by
    subst h
    exact congrArg _ hm
  withLoop name i hm := congrArg _ hm
  refl _ := rfl
  toEval hm := congrArg _ hm

namespace Origin

def isComputed : Origin → Bool
  | .given _ => false
  | _ => true

theorem exists_given {o : Origin} (h : o.isComputed = false) : ∃ r, o = .given r := by
  cases o with
  | given r => exact ⟨r, rfl⟩
  | _ => cases h

def texts : Origin → List String
  | .given _ => []
  | .default _ v => v.texts
  | .value _ v => v.texts
  | .copy entry => entry.texts

abbrev Cover (C : Callees) (o : Origin) : Prop := ∀ s ∈ o.texts, C.Admits s

inductive Near (near : String → String → Prop) : Origin → Origin → Prop
  | given (r : Except ExprError Json) : Near near (.given r) (.given r)
  | default (p : ParameterDefinition) (v : Json) : Near near (.default p v) (.default p v)
  | value {p q : String} (v : Json) : near p q → Near near (.value p v) (.value q v)
  | copy (entry : Json) : Near near (.copy entry) (.copy entry)

theorem Near.refl (h : ∀ p, near p p) (o : Origin) : o.Near near o := by
  cases o with
  | given r => exact .given r
  | default p v => exact .default p v
  | value p v => exact .value v (h p)
  | copy entry => exact .copy entry

theorem Near.eq_given {o : Origin} {r : Except ExprError Json} (h : o.Near near (.given r)) :
    o = .given r := by
  cases h
  rfl

theorem cover_all (o : Origin) : o.Cover .all := fun _ _ => Callees.cover_all _

end Origin

/-- Evaluations that agree on values and on entries of copies whose strings are selected. -/
structure Evaluations.Agree (B : Accord ExpandError Scope) (near : String → String → Prop) (P : String → Prop)
    (E F : Evaluations) : Prop where
  eval {p q : String} : near p q → ∀ v, (∀ s ∈ v.texts, P s) → B.Agree (E.eval p v) (F.eval q v)
  copy {p q : String} : near p q → ∀ v, (∀ s ∈ v.texts, P s) → B.Agree (E.copy p v) (F.copy q v)

theorem Evaluations.Agree.answer {P : String → Prop} {E F : Evaluations} (h : E.Agree B near P F)
    (hB : B.Encloses A near) {o o' : Origin} (ho : o.Near near o') (hc : ∀ s ∈ o.texts, P s)
    (hd : ∀ r, o = .given r → Definite r) :
    A.Agree (E.answer o) (F.answer o') := by
  cases ho with
  | given r => exact hB.inside.lift (hd r rfl)
  | default p v =>
    exact (hB.toEval (h.eval (hB.refl _) v hc)).bind fun x =>
      (hB.inside.lift (definite_check p x)).bind fun _ => .pure _
  | value v hpq => exact hB.toEval (h.eval hpq v hc)
  | copy entry => exact hB.toEval ((h.copy (hB.refl _) entry hc).bind fun _ => .pure _)

def Host.answer {σ : Type} (h : Host σ) (x : Request) : EvalM σ Json :=
  match x.table with
  | .parameters => h.parameterValue x.name
  | .vars => h.variableValue x.name

namespace Deployment

section
variable (d : Deployment)

def evaluations (h : Host Scope) : Evaluations :=
  ⟨d.evalOn h, Value.evalCopy d.options.maxCopyCount (Value.onHost h)⟩

def hostBy (l : Ledger) (calls : Nat) (answer : Request → EvalM Scope Json) : Host Scope :=
  { d.hostWith l (fun name => answer ⟨.parameters, name⟩) (fun name => answer ⟨.vars, name⟩) with
    userFunction := d.callFunction calls }

/-- The hosts of a deployment with another answer to requests, at every depth. -/
def hostsBy (l : Ledger) (calls : Nat) (answer : Evaluations → Request → EvalM Scope Json) :
    (depth : Nat) → Host Scope
  | 0 => d.hostBy l calls fun _ => throw .callDepthExceeded
  | depth + 1 => d.hostBy l calls (answer (d.evaluations (hostsBy l calls answer depth)))

theorem hostsBy_eq (l : Ledger) (calls : Nat) (answer : Evaluations → Request → EvalM Scope Json)
    (depth : Nat) : d.hostsBy l calls answer depth =
      d.hostBy l calls (d.hostsBy l calls answer depth).answer := by
  cases depth <;> rfl

theorem hostAt_eq (l : Ledger) (depth : Nat) :
    d.hostAt l depth = d.hostsBy l d.callDepth d.request depth := by
  induction depth with
  | zero => rfl
  | succ depth ih =>
    unfold hostAt hostsBy
    rw [ih]
    rfl

end

variable {d : Deployment} {l k : Ledger}

theorem answer_hostBy (calls : Nat) (answer : Request → EvalM Scope Json) (x : Request) :
    (d.hostBy l calls answer).answer x = answer x := by
  obtain ⟨table, name⟩ := x
  cases table <;> rfl

theorem evaluations_agree (hB : B.Encloses A near) {h h' : Host Scope} (hh : HostsAgree A C h h') :
    (d.evaluations h).Agree B near C.Admits (d.evaluations h') where
  eval hpq v hc := Value.agree_eval hB.toSurrounds (Value.onHost_agree hB.toSurrounds hh) hpq v hc
  copy hpq v hc := Value.agree_evalCopy hB.toSurrounds (Value.onHost_agree hB.toSurrounds hh) hpq v hc

/-- Hosts agree if their answers to requests and their calls of functions do. -/
theorem Accords.hostBy (h : d.Accords l k A C) {m n : Nat} {f g : Request → EvalM Scope Json}
    (hc : ∀ ns name, C.defined ns name → ∀ arguments,
      A.Agree (d.callFunction m ns name arguments) (d.callFunction n ns name arguments))
    (ha : ∀ x, A.Agree (f x) (g x)) : HostsAgree A C (d.hostBy l m f) (d.hostBy k n g) where
  parameterValue name := ha ⟨.parameters, name⟩
  variableValue name := ha ⟨.vars, name⟩
  copyIndex := h.copyIndex
  reference hr _ _ := h.resolve (.inl hr) _ _
  resourceInfo hr _ := h.resolve (.inr hr) _ _
  userFunction := hc
  deployment _ := .pure _
  newGuid := h.newGuid
  remark := h.remark
  read hf := hf.agree_read (fun _ _ => rfl) {}

theorem definite_origin {x : Request} {r : Except ExprError Json} (h : d.origin x = .given r) :
    Definite r := by
  unfold origin at h
  split at h
  · split at h
    · cases h
      exact Fails.error.mpr rfl
    · split at h
      · cases h
        exact .ok _
      · cases h
      · cases h
        split
        · exact .ok _
        · exact Fails.error.mpr rfl
  · split at h
    · cases h
      exact Fails.error.mpr rfl
    · cases h
    · cases h

theorem exists_of_mem_variableCopies {es : Entries Json} (h : es ∈ d.variableCopies) :
    ∃ key entries, (key, .arr entries) ∈ d.template.vars ∧ .obj es ∈ entries := by
  unfold variableCopies at h
  split at h
  · rename_i entries hv
    obtain ⟨key, hk, -⟩ := Entries.exists_of_getNamed? hv
    obtain ⟨v, hmem, hobj⟩ := List.mem_filterMap.mp h
    cases v with
    | obj fs =>
      cases hobj
      exact ⟨key, entries, hk, hmem⟩
    | _ => cases hobj
  · cases h

/-- The strings of what is computed are those of variables and defaults. -/
theorem texts_origin {P : String → Prop} (hv : ∀ e ∈ d.template.vars, ∀ s ∈ e.2.texts, P s)
    (hp : ∀ p ∈ d.template.parameters, ∀ v, p.default = some v → ∀ s ∈ v.texts, P s) (x : Request) :
    ∀ s ∈ (d.origin x).texts, P s := by
  have hnone {r : Except ExprError Json} : ∀ s ∈ (Origin.given r).texts, P s := fun _ hs => absurd hs List.not_mem_nil
  obtain ⟨table, name⟩ := x
  unfold origin
  cases table with
  | parameters =>
    dsimp only
    cases hfound : d.template.parameter? name with
    | none => exact hnone
    | some p =>
      dsimp only
      cases d.supplied.get? (Name.fold name) with
      | some v => exact hnone
      | none =>
        cases hd : p.default with
        | none => exact hnone
        | some v => exact hp p (List.mem_of_find?_eq_some hfound) v hd
  | vars =>
    dsimp only
    cases hs : d.variableSource? name with
    | none => exact hnone
    | some source =>
      unfold variableSource? at hs
      split at hs
      · cases hs
      · split at hs
        · rename_i v hfound
          cases hs
          obtain ⟨key, hk, -⟩ := Entries.exists_of_getNamed? hfound
          exact hv _ hk
        · obtain ⟨es, hes, rfl⟩ := Option.map_eq_some_iff.mp hs
          obtain ⟨key, entries, hk, hmem⟩ :=
            exists_of_mem_variableCopies (List.mem_of_find?_eq_some hes)
          exact fun s hs => hv _ hk s (Json.texts_of_mem_items hmem hs)

/-- What is computed calls selected functions only if variables and defaults do. -/
theorem cover_origin (hv : ∀ e ∈ d.template.vars, C.Cover e.2.calls)
    (hp : ∀ p ∈ d.template.parameters, ∀ v, p.default = some v → C.Cover v.calls) (x : Request) :
    (d.origin x).Cover C :=
  texts_origin (fun e he => Callees.cover_calls.mp (hv e he))
    (fun p hm v hd => Callees.cover_calls.mp (hp p hm v hd)) x

theorem mem_declared {x : Request} (h : (d.origin x).isComputed = true) : x.slot ∈ d.declared := by
  obtain ⟨table, name⟩ := x
  unfold origin at h
  cases table with
  | parameters =>
    dsimp only at h
    cases hp : d.template.parameter? name with
    | none =>
      rw [hp] at h
      cases h
    | some p => exact mem_declared_parameter hp
  | vars =>
    dsimp only at h
    cases hv : d.variableSource? name with
    | none =>
      rw [hv] at h
      cases h
    | some source => exact mem_declared_variable hv

def plain (parameters : List ParameterDefinition) (vars : Entries Json) (functions : List UserFunction) :
    Deployment where
  template := ⟨none, .resourceGroup, none, none, parameters, vars, functions, [], [], false, .null⟩
  options := {}
  identity := .root {} .resourceGroup
  supplied := []

end Deployment

/-- What is asked of a host: a parameter or variable, an expression inside lambdas, or a value at a place. -/
inductive Inquiry where
  | request (x : Request)
  | expression (e : Expr) (scopes : Expr.Scopes)
  | value (pointer : String) (v : Json)

def Inquiry.on (d : Deployment) (h : Host Scope) : Inquiry → EvalM Scope Json
  | .request x => h.answer x
  | .expression e scopes => Expr.eval h scopes e
  | .value pointer v => (d.evalOn h pointer v).toEval

theorem Inquiry.agree {d : Deployment} (hB : B.Encloses A near) {h k : Host Scope}
    (hk : HostsAgree A .all h k) (i : Inquiry) : A.Agree (i.on d h) (i.on d k) := by
  cases i with
  | request x =>
    obtain ⟨table, name⟩ := x
    cases table with
    | parameters => exact hk.parameterValue name
    | vars => exact hk.variableValue name
  | expression e scopes =>
    exact Expr.eval_agrees hB.inside hk e (Callees.cover_all _) scopes
  | value pointer v =>
    exact hB.toEval ((d.evaluations_agree hB hk).eval (hB.refl pointer) v fun _ _ => Callees.cover_all _)

section
variable {S : Discipline ExprError Scope} {T : Discipline ExpandError Scope} (hS : T.Surrounds S)
  (hto : ∀ {α : Type} {m : ScopeM α}, T.Obeys m → S.Obeys m.toEval)
include hS hto

theorem Discipline.Surrounds.encloses : T.alone.Encloses S.alone Eq where
  toSurrounds := hS.alone
  refl _ := rfl
  toEval hm := ⟨congrArg ScopeM.toEval hm.1, hto hm.2⟩

theorem Inquiry.obeys {d : Deployment} {h : Host Scope} (hh : HostObeys S h) (i : Inquiry) : S.Obeys (i.on d h) :=
  (i.agree (hS.encloses hto) hh.agrees).2

end

section
variable {R : Scope → Scope → Prop} (hF : Frame R) {β : Type} {view : Scope → β}
  (hR : ∀ s t, view t = view s → R s t) (hview : ∀ s pointer loops, view { s with pointer, loops } = view s)
include hF hR hview

/-- A place and loops that are set for a step and put back after it make no difference where they are not in view. -/
theorem Frame.around {s t : Scope} {pointer pointer' : String} {loops loops' : List (String × Int)}
    (h : R { s with pointer, loops } t) : R s { t with pointer := pointer', loops := loops' } :=
  hF.trans _ _ _ (hR s _ (hview s pointer loops)) (hF.trans _ _ _ h (hR t _ (hview t pointer' loops')))

theorem Frame.surrounds (hreport : ∀ s deployment pointer x, R s (s.report deployment pointer x)) :
    (changing hF : Discipline ExpandError Scope).Surrounds (changing hF) where
  inside := hF.evaluates
  lift _ := hF.refl
  report deployment pointer x s := hreport s deployment pointer x
  atPlace pointer hm s := hF.around hR hview (hm { s with pointer })
  withLoop name i hm s := hF.around hR hview (hm { s with loops := (name, (i : Int)) :: s.loops })
  attempt hm s := hm s

theorem Frame.encloses : (changing hF : Discipline ExpandError Scope).alone.Encloses (changing hF).alone Eq where
  inside := hF.evaluates.alone
  append _ hpq := congrArg (· ++ _) hpq
  lift {α f p q} hpq _ _ := by
    subst hpq
    exact ⟨rfl, fun s => hF.refl s⟩
  atPlace {α m n p q} hpq hm := by
    obtain ⟨rfl, hm⟩ := hm
    subst hpq
    exact ⟨rfl, fun s => hF.around hR hview (hm { s with pointer := p })⟩
  withLoop {α m n} name i hm := by
    obtain ⟨rfl, hm⟩ := hm
    exact ⟨rfl, fun s => hF.around hR hview (hm { s with loops := (name, (i : Int)) :: s.loops })⟩
  refl _ := rfl
  toEval h := ⟨congrArg ScopeM.toEval h.1, fun s => h.2 s⟩

end

namespace Steady

variable {d : Deployment} {R : Scope → Scope → Prop}

theorem encloses (h : Steady d R) :
    (h.discipline : Discipline ExpandError Scope).alone.Encloses h.discipline.alone Eq :=
  h.surrounds.encloses fun hm s => hm s

theorem hosts (h : Steady d R) (l : Ledger) (depth : Nat) :
    HostsAgree h.discipline.alone .all (d.hostAt l depth) (d.hostAt l depth) :=
  ((h.obeys l).hostAt depth).agrees

/-- What is asked of a deployment keeps a relation that its primitive steps keep. -/
theorem inquiry (h : Steady d R) (l : Ledger) (depth : Nat) (i : Inquiry) (s : Scope) :
    R s (outcome (i.on d (d.hostAt l depth)) s).2 :=
  (i.agree h.encloses (h.hosts l depth)).2 s

theorem computation (h : Steady d R) (l : Ledger) (depth : Nat) (x : Request) (s : Scope) :
    R s (outcome ((d.evaluations (d.hostAt l depth)).answer (d.origin x)) s).2 := by
  have ha := (d.evaluations_agree h.encloses (h.hosts l depth)).answer h.encloses
    (Origin.Near.refl (fun _ => rfl) (d.origin x)) (d.origin x).cover_all
    fun _ => d.definite_origin
  exact ha.2 s

end Steady
end

def Scope.CountsAlike (s t : Scope) : Prop := s.guids = t.guids

namespace Deployment

variable {d d' : Deployment} {C : Callees}

/-- The body of a function takes no step for which scopes differ that count alike. -/
theorem bodyAccords_countsAlike (d : Deployment) :
    d.BodyAccords (.between Scope.CountsAlike) C where
  evaluates := ⟨fun _ _ _ h => ⟨rfl, h⟩⟩
  newGuid _ s t h := by
    have hn : s.guids = t.guids := h
    constructor
    · change Except.ok (d.newGuid t).1 = Except.ok (d.newGuid s).1
      unfold Deployment.newGuid
      rw [hn]
    · exact congrArg (· + 1) hn
  remark text s t h := by
    have hw (u : Scope) : (d.warn text u).guids = u.guids := by
      unfold Deployment.warn Scope.report
      dsimp only
      split <;> rfl
    exact ⟨rfl, (hw s).trans (Eq.trans h (hw t).symm)⟩

/-- What a deployment supplies to its parameters does not show in its functions. -/
theorem callFunction_congr (ht : d'.template = d.template) (ho : d'.options = d.options)
    (hi : d'.identity = d.identity) (depth : Nat) : d'.callFunction depth = d.callFunction depth := by
  induction depth with
  | zero => rfl
  | succ depth ih =>
    funext ns name arguments
    unfold callFunction
    rw [ih]
    obtain ⟨t, o, i, supplied⟩ := d
    obtain ⟨t', o', i', supplied'⟩ := d'
    cases ht
    cases ho
    cases hi
    rfl

/-- A function of a template gives the same, a value or a failure, in any two scopes where as many
identifiers were made before, and makes as many more. The deployments differ in what their callers supply to
parameters, the scopes in their slots, loops, place, secure values and diagnostics, the ledgers in all
resources; the function may call others. -/
theorem userFunction_noninterference (ht : d'.template = d.template) (ho : d'.options = d.options)
    (hi : d'.identity = d.identity) (l l' : Ledger) (depth depth' : Nat) {s s' : Scope}
    (hs : s'.guids = s.guids) (ns name : String) (arguments : List Json) :
    (outcome ((d'.hostAt l' depth').userFunction ns name arguments) s').1 =
        (outcome ((d.hostAt l depth).userFunction ns name arguments) s).1 ∧
      (outcome ((d'.hostAt l' depth').userFunction ns name arguments) s').2.guids =
        (outcome ((d.hostAt l depth).userFunction ns name arguments) s).2.guids := by
  have hcall (e : Deployment) (k : Ledger) (n : Nat) :
      (e.hostAt k n).userFunction = e.callFunction e.callDepth := by
    cases n <;> rfl
  have hdepth : d'.callDepth = d.callDepth := by
    unfold callDepth
    rw [ht]
  rw [hcall, hcall, hdepth, callFunction_congr ht ho hi]
  have hselected : Callees.all.defined ns name := trivial
  obtain ⟨hr, hg⟩ := d.bodyAccords_countsAlike.callFunction (fun _ _ h => ⟨rfl, h⟩)
    (fun _ _ _ _ _ => Callees.cover_all _) d.callDepth hselected arguments s s' hs.symm
  exact ⟨hr, hg.symm⟩

/-- A function that calls another. Both name their parameter as the caller of the deployment does. -/
def greeting (supplied : Entries Json) : Deployment :=
  { plain [⟨"x", .string, none, none, false⟩] []
      [⟨"f", "greet", [("x", .string)], .string, .str "[concat('hello ', f.loud(parameters('x')))]"⟩,
       ⟨"f", "loud", [("x", .string)], .string, .str "[concat(parameters('x'), '!')]"⟩] with
    supplied }

/-- A scope in which a loop runs, a secure value is known and a parameter has its value. -/
def busy : Scope where
  parameters := [("x", .evaluated (.str "world"))]
  loops := [("copy", 3)]
  secure := [.str "world"]
  guids := 2
  diagnostics := [.warning .expressionWarning "empty"]

theorem userFunction_noninterference_greeting :
    (greeting [("x", .str "world")]).template = (greeting []).template ∧ busy.guids = 2 ∧
      (outcome (((greeting [("x", .str "world")]).hostAt ⟨[], {}, [], [], [], [], []⟩ 2).userFunction
        "f" "greet" [.str "you"]) busy).1.toOption.bind Json.str? = some "hello you!" := by
  have ht : (greeting [("x", .str "world")]).template = (greeting []).template := rfl
  have hg : busy.guids = ({ guids := 2 } : Scope).guids := rfl
  obtain ⟨hr, -⟩ := userFunction_noninterference ht rfl rfl ⟨[], {}, [], [], [], [], []⟩
    ⟨[], {}, [], [], [], [], []⟩ 0 2 hg "f" "greet" [.str "you"]
  rw [hr]
  exact ⟨rfl, rfl, by decide +kernel⟩

end Deployment
end ResourceTemplate
