import Mathlib.Data.List.Dedup
import Mathlib.Data.List.Perm.Subperm
import ResourceTemplate.Proofs.Deployment.Slots

namespace ResourceTemplate

inductive SlotTable where
  | parameters
  | vars
deriving DecidableEq

abbrev SlotName := SlotTable × String

structure Request where
  table : SlotTable
  name : String

def Request.slot (x : Request) : SlotName := (x.table, Name.fold x.name)

namespace Scope

section

def slots (s : Scope) : SlotTable → Entries Slot
  | .parameters => s.parameters
  | .vars => s.vars

def slot? (s : Scope) (x : SlotName) : Option Slot := (s.slots x.1).get? x.2

def running (s : Scope) (x : SlotName) : Bool :=
  match s.slot? x with
  | some .inProgress => true
  | _ => false

def put (x : SlotName) (slot : Slot) (s : Scope) : Scope :=
  match x.1 with
  | .parameters => Deployment.setParameter x.2 slot s
  | .vars => Deployment.setVariable x.2 slot s

def drop (x : SlotName) (s : Scope) : Scope :=
  match x.1 with
  | .parameters => Deployment.clearParameter x.2 s
  | .vars => Deployment.clearVariable x.2 s

def inLoops (loops : List (String × Int)) (s : Scope) : Scope := { s with loops }

def enter (x : SlotName) (s : Scope) : Scope := (s.put x .inProgress).inLoops []

variable {s t : Scope} {x y : SlotName}

theorem running_iff : s.running x = true ↔ s.slot? x = some .inProgress := by
  unfold running
  split
  · simp_all
  · simp_all

theorem running_of_free (h : s.slot? x = none) : s.running x = false := by
  unfold running
  rw [h]

theorem running_congr (h : t.slot? x = s.slot? x) : t.running x = s.running x := by
  unfold running
  rw [h]

theorem slot?_congr (hp : t.parameters = s.parameters) (hv : t.vars = s.vars) (x : SlotName) :
    t.slot? x = s.slot? x := by
  obtain ⟨table, key⟩ := x
  cases table with
  | parameters => exact congrArg (fun es => Entries.get? es key) hp
  | vars => exact congrArg (fun es => Entries.get? es key) hv

theorem slot?_put (x y : SlotName) (slot : Slot) (s : Scope) :
    (s.put x slot).slot? y = if y = x then some slot else s.slot? y := by
  obtain ⟨table, key⟩ := x
  obtain ⟨table', key'⟩ := y
  cases table <;> cases table' <;>
    simp [put, slot?, slots, Deployment.setParameter, Deployment.setVariable, Entries.get?_insert]

theorem guids_put (x : SlotName) (slot : Slot) (s : Scope) : (s.put x slot).guids = s.guids := by
  obtain ⟨table, key⟩ := x
  cases table <;> rfl

theorem guids_drop (x : SlotName) (s : Scope) : (s.drop x).guids = s.guids := by
  obtain ⟨table, key⟩ := x
  cases table <;> rfl

theorem slot?_drop (x y : SlotName) (s : Scope) :
    (s.drop x).slot? y = if y = x then none else s.slot? y := by
  obtain ⟨table, key⟩ := x
  obtain ⟨table', key'⟩ := y
  cases table <;> cases table' <;>
    simp [drop, slot?, slots, Deployment.clearParameter, Deployment.clearVariable, Entries.get?_erase]

theorem slot?_enter (x y : SlotName) (s : Scope) :
    (s.enter x).slot? y = if y = x then some .inProgress else s.slot? y :=
  slot?_put x y .inProgress s

theorem slot?_report (s : Scope) (deployment pointer : String) (x : Diagnostic) (y : SlotName) :
    (s.report deployment pointer x).slot? y = s.slot? y := by
  obtain ⟨_, _, hr⟩ := s.report_eq deployment pointer x
  rw [hr]
  rfl

theorem Undisturbed.slot? (h : s.Undisturbed t) (x : SlotName) :
    (t.slot? x = some .inProgress ↔ s.slot? x = some .inProgress) ∧
      ∀ v, s.slot? x = some (.evaluated v) → t.slot? x = some (.evaluated v) := by
  obtain ⟨table, key⟩ := x
  cases table with
  | parameters => exact ⟨h.parameters.inProgress key, h.parameters.evaluated key⟩
  | vars => exact ⟨h.vars.inProgress key, h.vars.evaluated key⟩

theorem Undisturbed.running (h : s.Undisturbed t) (x : SlotName) : t.running x = s.running x :=
  Bool.eq_iff_iff.mpr (running_iff.trans ((h.slot? x).1.trans running_iff.symm))

end

variable {s : Scope} {x : SlotName}

/-- A slot that is in progress for a while and dropped is free as before. -/
theorem drop_enter (h : s.slot? x = none) : ((s.enter x).drop x).inLoops s.loops = s := by
  obtain ⟨table, key⟩ := x
  cases table with
  | parameters =>
    have hp : (s.parameters.insert key .inProgress).erase key = s.parameters := Entries.erase_insert h _
    exact congrArg (fun parameters => { s with parameters }) hp
  | vars =>
    have hv : (s.vars.insert key .inProgress).erase key = s.vars := Entries.erase_insert h _
    exact congrArg (fun vars => { s with vars }) hv

/-- A slot that is in progress for a while and kept has its value. -/
theorem put_enter (x : SlotName) (slot : Slot) (s : Scope) :
    ((s.enter x).put x slot).inLoops s.loops = s.put x slot := by
  obtain ⟨table, key⟩ := x
  cases table with
  | parameters =>
    exact congrArg (fun parameters => { s with parameters }) (Entries.insert_insert _ _ _ _)
  | vars => exact congrArg (fun vars => { s with vars }) (Entries.insert_insert _ _ _ _)

theorem remember_enter (x : SlotName) (v : Json) (s : Scope) :
    (s.enter x).remember v = (s.remember v).enter x := by
  obtain ⟨table, key⟩ := x
  have hs : (s.enter (table, key)).secure = s.secure := by cases table <;> rfl
  unfold remember
  rw [hs]
  split
  · cases table <;> rfl
  · rfl

end Scope

/-- Where the value of a parameter or variable comes from: it is given, or there is no such name, or it is
computed from a default, a value or an entry of copies. -/
inductive Origin where
  | given (r : Except ExprError Json)
  | default (p : ParameterDefinition) (v : Json)
  | value (pointer : String) (v : Json)
  | copy (entry : Json)

structure Evaluations where
  eval : Evaluation
  copy : (pointer : String) → Json → ScopeM (String × Json)

def Evaluations.answer (E : Evaluations) : Origin → EvalM Scope Json
  | .given r => Host.lift r
  | .default p v => do
    let x ← (E.eval ("/parameters/" ++ p.name ++ "/defaultValue") v).toEval
    Host.lift (p.check x)
    return x
  | .value pointer v => (E.eval pointer v).toEval
  | .copy entry => ScopeM.toEval do return (← E.copy "/variables/copy" entry).2

namespace Deployment

variable (d : Deployment)

def origin (x : Request) : Origin :=
  match x.table with
  | .parameters =>
    match d.template.parameter? x.name with
    | none => .given (.error (.unknownParameter x.name))
    | some p =>
      match d.supplied.get? (Name.fold x.name), p.default with
      | some v, _ => .given (.ok v)
      | none, some v => .default p v
      | none, none => .given (if p.nullable then .ok .null else .error (.missingRequiredParameter p.name))
  | .vars =>
    match d.variableSource? x.name with
    | none => .given (.error (.unknownVariable x.name))
    | some (.value v) => .value ("/variables/" ++ x.name) v
    | some (.copy entry) => .copy entry

def request (E : Evaluations) (x : Request) : EvalM Scope Json :=
  match x.table with
  | .parameters => d.parameterValue E.eval x.name
  | .vars => d.variableValue E.eval E.copy x.name

def remember (x : Request) (v : Json) (s : Scope) : Scope :=
  match x.table, d.template.parameter? x.name with
  | .parameters, some p => if p.type.isSecure then s.remember v else s
  | _, _ => s

def keep (x : Request) (v : Json) (s : Scope) : Scope :=
  (d.remember x v s).put x.slot (.evaluated v)

/-- End the computation of a value: it is kept, or its slot is free again. The loops are put back. -/
def settle (x : Request) (s : Scope) : Except ExprError Json × Scope → Except ExprError Json × Scope
  | (.ok v, t) => (.ok v, (d.keep x v t).inLoops s.loops)
  | (.error e, t) => (.error e, (t.drop x.slot).inLoops s.loops)

variable {d} {s : Scope} {x : Request} {E : Evaluations}

theorem request_evaluated {v : Json} (h : s.slot? x.slot = some (.evaluated v)) :
    outcome (d.request E x) s = (.ok v, s) := by
  obtain ⟨table, name⟩ := x
  cases table with
  | parameters =>
    change s.parameters.get? (Name.fold name) = _ at h
    simp [request, parameterValue, outcome_bind, h]
  | vars =>
    change s.vars.get? (Name.fold name) = _ at h
    simp [request, variableValue, outcome_bind, h]

/-- What is asked for while it is computed refers back to itself. -/
theorem request_running (h : s.running x.slot = true) :
    outcome (d.request E x) s = (.error (.cyclicVariableReference x.name), s) := by
  rw [Scope.running_iff] at h
  obtain ⟨table, name⟩ := x
  cases table with
  | parameters =>
    change s.parameters.get? (Name.fold name) = _ at h
    simp [request, parameterValue, outcome_bind, h]
  | vars =>
    change s.vars.get? (Name.fold name) = _ at h
    simp [request, variableValue, outcome_bind, h]

theorem outcome_outside (value : ScopeM Json) (s : Scope) :
    outcome (ScopeM.outsideLoops value).toEval s =
      ((outcome value.toEval (s.inLoops [])).1,
        (outcome value.toEval (s.inLoops [])).2.inLoops s.loops) := rfl

section
variable {key : String} {t : Scope} {v : Json} {e : ExprError}

theorem freshVariable_ok {value : ScopeM Json}
    (h : outcome value.toEval ((setVariable key .inProgress s).inLoops []) = (.ok v, t)) :
    outcome (freshVariable key value) s = (.ok v, (setVariable key (.evaluated v) t).inLoops s.loops) := by
  have ho := outcome_outside value (setVariable key .inProgress s)
  rw [h] at ho
  change freshVariable key value s = _
  unfold outcome at ho
  unfold freshVariable
  rewrite [ho]
  rfl

theorem freshVariable_error {value : ScopeM Json}
    (h : outcome value.toEval ((setVariable key .inProgress s).inLoops []) = (.error e, t)) :
    outcome (freshVariable key value) s = (.error e, (clearVariable key t).inLoops s.loops) := by
  have ho := outcome_outside value (setVariable key .inProgress s)
  rw [h] at ho
  change freshVariable key value s = _
  unfold outcome at ho
  unfold freshVariable
  rewrite [ho]
  rfl

variable {p : ParameterDefinition} {default : Json}

theorem defaultValue_ok
    (h : outcome (E.answer (.default p default)) ((setParameter key .inProgress s).inLoops []) =
      (.ok v, t)) :
    outcome (defaultValue E.eval p key default) s = (.ok v, t.inLoops s.loops) := by
  obtain ⟨x, t', hx, h⟩ := outcome_bind_eq_ok.mp h
  obtain ⟨_, _, hc, h⟩ := outcome_bind_eq_ok.mp h
  obtain ⟨hcheck, rfl⟩ := Prod.mk.inj hc
  cases h
  have ho := outcome_outside (E.eval ("/parameters/" ++ p.name ++ "/defaultValue") default)
    (setParameter key .inProgress s)
  rw [hx] at ho
  change defaultValue E.eval p key default s = _
  unfold outcome at ho
  unfold defaultValue
  dsimp only
  rewrite [ho]
  dsimp only
  rewrite [hcheck]
  rfl

theorem defaultValue_error
    (h : outcome (E.answer (.default p default)) ((setParameter key .inProgress s).inLoops []) =
      (.error e, t)) :
    outcome (defaultValue E.eval p key default) s = (.error e, (clearParameter key t).inLoops s.loops) := by
  have ho := outcome_outside (E.eval ("/parameters/" ++ p.name ++ "/defaultValue") default)
    (setParameter key .inProgress s)
  change defaultValue E.eval p key default s = _
  unfold outcome at ho
  unfold defaultValue
  dsimp only
  rcases outcome_bind_eq_error.mp h with hx | ⟨x, t', hx, h⟩
  · unfold outcome at hx
    rewrite [ho, hx]
    rfl
  · rcases outcome_bind_eq_error.mp h with hc | ⟨_, _, hc, h⟩
    · obtain ⟨hcheck, rfl⟩ := Prod.mk.inj hc
      unfold outcome at hx
      rewrite [ho, hx]
      dsimp only
      rewrite [hcheck]
      rfl
    · cases h

end

theorem keep_parameter {name : String} {p : ParameterDefinition}
    (h : d.template.parameter? name = some p) (v : Json) (s : Scope) :
    d.keep ⟨.parameters, name⟩ v s = keepParameter p (Name.fold name) v s := by
  unfold keep remember
  rw [h]
  rfl

theorem remember_enter (v : Json) :
    d.remember x v (s.enter x.slot) = (d.remember x v s).enter x.slot := by
  unfold remember
  split
  · split
    · exact Scope.remember_enter _ _ _
    · rfl
  · rfl

theorem remember_eq (v : Json) : ∃ secure, d.remember x v s = { s with secure } := by
  unfold remember
  split
  · split
    · exact s.remember_eq v
    · exact ⟨s.secure, rfl⟩
  · exact ⟨s.secure, rfl⟩

theorem loops_remember (v : Json) : (d.remember x v s).loops = s.loops := by
  obtain ⟨_, hs⟩ := remember_eq (d := d) (x := x) (s := s) v
  rw [hs]

theorem slot?_keep (d : Deployment) (x : Request) (v : Json) (s : Scope) (y : SlotName) :
    (d.keep x v s).slot? y = if y = x.slot then some (.evaluated v) else s.slot? y := by
  obtain ⟨_, hs⟩ := remember_eq (d := d) (x := x) (s := s) v
  unfold keep
  rw [Scope.slot?_put, hs]
  rfl

theorem guids_keep (d : Deployment) (x : Request) (v : Json) (s : Scope) :
    (d.keep x v s).guids = s.guids := by
  obtain ⟨_, hs⟩ := remember_eq (d := d) (x := x) (s := s) v
  unfold keep
  rw [Scope.guids_put, hs]

theorem keep_enter (v : Json) : (d.keep x v (s.enter x.slot)).inLoops s.loops = d.keep x v s := by
  unfold keep
  rw [remember_enter, ← loops_remember v, Scope.put_enter]

theorem settle_given (h : s.slot? x.slot = none) (r : Except ExprError Json) :
    d.settle x s (outcome (E.answer (.given r)) (s.enter x.slot)) =
      (r, match r with
        | .ok v => d.keep x v s
        | .error _ => s) := by
  unfold Evaluations.answer
  rw [Host.outcome_lift]
  cases r with
  | ok v => exact congrArg (Prod.mk _) (keep_enter v)
  | error e => exact congrArg (Prod.mk _) (Scope.drop_enter h)

theorem keepParameter_inLoops (p : ParameterDefinition) (key : String) (v : Json)
    (loops : List (String × Int)) (s : Scope) :
    keepParameter p key v (s.inLoops loops) = (keepParameter p key v s).inLoops loops := by
  have hr : (s.inLoops loops).remember v = (s.remember v).inLoops loops := by
    change (if Scope.isTrackable v && !(s.secure.any fun x => x.eqUnordered v) then _ else _) = _
    unfold Scope.remember
    split <;> rfl
  unfold keepParameter
  split
  · rw [hr]
    rfl
  · rfl

section
variable {name : String}

theorem parameterValue_undeclared (h : s.parameters.get? (Name.fold name) = none)
    (hp : d.template.parameter? name = none) :
    outcome (d.parameterValue E.eval name) s = (.error (.unknownParameter name), s) := by
  simp [parameterValue, outcome_bind, h, hp]

theorem parameterValue_declared {p : ParameterDefinition} (h : s.parameters.get? (Name.fold name) = none)
    (hp : d.template.parameter? name = some p) :
    outcome (d.parameterValue E.eval name) s =
      outcome (do
        let v ← d.freshParameter E.eval p (Name.fold name)
        modify (keepParameter p (Name.fold name) v)
        return v) s := by
  simp [parameterValue, outcome_bind, h, hp]

theorem variableValue_undeclared (h : s.vars.get? (Name.fold name) = none)
    (hv : d.variableSource? name = none) :
    outcome (d.variableValue E.eval E.copy name) s = (.error (.unknownVariable name), s) := by
  simp [variableValue, outcome_bind, h, hv]

theorem variableValue_value {v : Json} (h : s.vars.get? (Name.fold name) = none)
    (hv : d.variableSource? name = some (.value v)) :
    outcome (d.variableValue E.eval E.copy name) s =
      outcome (freshVariable (Name.fold name) (E.eval ("/variables/" ++ name) v)) s := by
  simp [variableValue, outcome_bind, h, hv]

theorem variableValue_copy {entry : Json} (h : s.vars.get? (Name.fold name) = none)
    (hv : d.variableSource? name = some (.copy entry)) :
    outcome (d.variableValue E.eval E.copy name) s =
      outcome (freshVariable (Name.fold name) (do return (← E.copy "/variables/copy" entry).2)) s := by
  simp [variableValue, outcome_bind, h, hv]

theorem settle_parameter {p : ParameterDefinition} {v : Json}
    (h : s.slot? (Request.slot ⟨.parameters, name⟩) = none) (hp : d.template.parameter? name = some p) :
    d.settle ⟨.parameters, name⟩ s
        (outcome (E.answer (.given (.ok v))) (s.enter (Request.slot ⟨.parameters, name⟩))) =
      (.ok v, keepParameter p (Name.fold name) v s) := by
  rw [settle_given h]
  dsimp only
  rw [keep_parameter hp]

theorem settle_default {p : ParameterDefinition} {v : Json} (hp : d.template.parameter? name = some p) :
    outcome (do
        let x ← defaultValue E.eval p (Name.fold name) v
        modify (keepParameter p (Name.fold name) x)
        return x) s =
      d.settle ⟨.parameters, name⟩ s
        (outcome (E.answer (.default p v)) (s.enter (Request.slot ⟨.parameters, name⟩))) := by
  change _ = d.settle _ _
    (outcome (E.answer (.default p v)) ((setParameter (Name.fold name) .inProgress s).inLoops []))
  rw [outcome_bind]
  rcases ho : outcome (E.answer (.default p v)) ((setParameter (Name.fold name) .inProgress s).inLoops [])
    with ⟨e | w, t⟩
  · rw [defaultValue_error ho]
    rfl
  · rw [defaultValue_ok ho]
    dsimp only [settle]
    rw [keep_parameter hp]
    exact congrArg (Prod.mk _) (keepParameter_inLoops p _ w s.loops t)

theorem settle_variable (value : ScopeM Json) :
    outcome (freshVariable (Name.fold name) value) s =
      d.settle ⟨.vars, name⟩ s (outcome value.toEval (s.enter (Request.slot ⟨.vars, name⟩))) := by
  change _ = d.settle _ _
    (outcome value.toEval ((setVariable (Name.fold name) .inProgress s).inLoops []))
  rcases hv : outcome value.toEval ((setVariable (Name.fold name) .inProgress s).inLoops [])
    with ⟨e | v, t⟩
  · rw [freshVariable_error hv]
    rfl
  · rw [freshVariable_ok hv]
    rfl

theorem request_free_parameter (h : s.slot? (Request.slot ⟨.parameters, name⟩) = none) :
    outcome (d.parameterValue E.eval name) s = d.settle ⟨.parameters, name⟩ s
      (outcome (E.answer (d.origin ⟨.parameters, name⟩))
        (s.enter (Request.slot ⟨.parameters, name⟩))) := by
  have hs : s.parameters.get? (Name.fold name) = none := h
  unfold origin
  dsimp only
  cases hp : d.template.parameter? name with
  | none => exact (parameterValue_undeclared hs hp).trans (settle_given h _).symm
  | some p =>
    rw [parameterValue_declared hs hp]
    dsimp only
    unfold freshParameter
    cases d.supplied.get? (Name.fold name) with
    | some v => exact (settle_parameter h hp).symm
    | none =>
      cases p.default with
      | some v => exact settle_default hp
      | none =>
        cases p.nullable with
        | true => exact (settle_parameter h hp).symm
        | false => exact (settle_given h _).symm

theorem request_free_variable (h : s.slot? (Request.slot ⟨.vars, name⟩) = none) :
    outcome (d.variableValue E.eval E.copy name) s = d.settle ⟨.vars, name⟩ s
      (outcome (E.answer (d.origin ⟨.vars, name⟩)) (s.enter (Request.slot ⟨.vars, name⟩))) := by
  have hs : s.vars.get? (Name.fold name) = none := h
  unfold origin
  dsimp only
  cases hv : d.variableSource? name with
  | none => exact (variableValue_undeclared hs hv).trans (settle_given h _).symm
  | some source =>
    cases source with
    | value v => exact (variableValue_value hs hv).trans (settle_variable _)
    | copy entry => exact (variableValue_copy hs hv).trans (settle_variable _)

end

theorem request_free (h : s.slot? x.slot = none) :
    outcome (d.request E x) s = d.settle x s (outcome (E.answer (d.origin x)) (s.enter x.slot)) := by
  obtain ⟨table, name⟩ := x
  cases table with
  | parameters => exact request_free_parameter h
  | vars => exact request_free_variable h

theorem slot?_of_request {v : Json} (h : (outcome (d.request E x) s).1 = .ok v) :
    (outcome (d.request E x) s).2.slot? x.slot = some (.evaluated v) := by
  cases hslot : s.slot? x.slot with
  | some slot =>
    cases slot with
    | inProgress =>
      rw [request_running (Scope.running_iff.mpr hslot)] at h
      cases h
    | evaluated w =>
      rw [request_evaluated hslot] at h ⊢
      cases h
      exact hslot
  | none =>
    rw [request_free hslot] at h ⊢
    generalize outcome (E.answer (d.origin x)) (s.enter x.slot) = o at h
    obtain ⟨e | w, t⟩ := o
    · cases h
    · cases h
      change (d.keep x v t).slot? x.slot = _
      rw [slot?_keep, if_pos rfl]

theorem loops_request : (outcome (d.request E x) s).2.loops = s.loops := by
  cases hslot : s.slot? x.slot with
  | some slot =>
    cases slot with
    | inProgress => rw [request_running (Scope.running_iff.mpr hslot)]
    | evaluated w => rw [request_evaluated hslot]
  | none =>
    rw [request_free hslot]
    generalize outcome (E.answer (d.origin x)) (s.enter x.slot) = o
    obtain ⟨e | w, t⟩ := o <;> rfl

def variableNames (d : Deployment) : List String :=
  ((d.template.vars.keys ++
      d.variableCopies.filterMap fun es => (Entries.getNamed? es "name").bind Json.str?).map
    Name.fold).filter (· ≠ "copy")

/-- The parameters and variables of a template, each once. -/
def declared (d : Deployment) : List SlotName :=
  (d.template.parameters.map (fun p => (SlotTable.parameters, Name.fold p.name)) ++
    d.variableNames.map (Prod.mk SlotTable.vars)).dedup

theorem length_declared_le (d : Deployment) : d.declared.length ≤ d.slotCount := by
  have hn : d.variableNames.length ≤ d.template.vars.length + d.variableCopies.length := by
    have hc := List.length_filterMap_le (fun es => (Entries.getNamed? es "name").bind Json.str?)
      d.variableCopies
    have hf := List.length_filter_le (· ≠ "copy") ((d.template.vars.keys ++
      d.variableCopies.filterMap fun es => (Entries.getNamed? es "name").bind Json.str?).map Name.fold)
    simp only [List.length_map, List.length_append, Entries.keys] at hf
    unfold variableNames
    simp only [Entries.keys]
    omega
  have hd := (List.dedup_sublist (d.template.parameters.map (fun p =>
    (SlotTable.parameters, Name.fold p.name)) ++ d.variableNames.map (Prod.mk .vars))).length_le
  simp only [List.length_append, List.length_map] at hd
  unfold declared slotCount
  omega

theorem mem_declared_parameter {name : String} {p : ParameterDefinition}
    (h : d.template.parameter? name = some p) : Request.slot ⟨.parameters, name⟩ ∈ d.declared := by
  have hp := List.mem_of_find?_eq_some h
  have hn := List.find?_some h
  exact List.mem_dedup.mpr (List.mem_append_left _
    (List.mem_map.mpr ⟨p, hp, congrArg (Prod.mk SlotTable.parameters) (Name.same_iff.mp hn)⟩))

theorem mem_declared_variable {name : String} {source : VariableSource}
    (h : d.variableSource? name = some source) : Request.slot ⟨.vars, name⟩ ∈ d.declared := by
  unfold variableSource? at h
  split at h
  · cases h
  · rename_i hcopy
    have hne : Name.fold name ≠ "copy" := fun hf => hcopy (Name.same_iff.mpr hf)
    have hmem (key : String) (hk : key ∈ d.template.vars.keys ++ d.variableCopies.filterMap fun es =>
        (Entries.getNamed? es "name").bind Json.str?) (hf : Name.fold key = Name.fold name) :
        Request.slot ⟨.vars, name⟩ ∈ d.declared := by
      have hn : Name.fold name ∈ d.variableNames :=
        List.mem_filter.mpr ⟨List.mem_map.mpr ⟨key, hk, hf⟩, by simpa using hne⟩
      exact List.mem_dedup.mpr (List.mem_append_right _ (List.mem_map_of_mem hn))
    split at h
    · rename_i hv
      obtain ⟨key, hk, hf⟩ := Entries.exists_of_getNamed? hv
      exact hmem key (List.mem_append_left _ (List.mem_map.mpr ⟨_, hk, rfl⟩)) hf
    · obtain ⟨es, hes, -⟩ := Option.map_eq_some_iff.mp h
      have hany := List.find?_some hes
      obtain ⟨key, hk, hs⟩ := (Option.any_eq_true _ _).mp hany
      exact hmem key (List.mem_append_right _ (List.mem_filterMap.mpr
        ⟨es, List.mem_of_find?_eq_some hes, hk⟩)) (Name.same_iff.mp hs)

end Deployment

namespace Scope

variable {s t : Scope} {names : List SlotName} {x : SlotName}

def inProgress (s : Scope) : List SlotName :=
  (s.parameters.keys.map (Prod.mk SlotTable.parameters) ++
    s.vars.keys.map (Prod.mk SlotTable.vars)).dedup.filter s.running

def free (s : Scope) (names : List SlotName) : Nat := names.countP fun x => !s.running x

theorem free_congr (h : ∀ x, t.running x = s.running x) : t.free names = s.free names := by
  unfold free
  rw [funext h]

theorem running_enter (x y : SlotName) (s : Scope) :
    (s.enter x).running y = if y = x then true else s.running y := by
  unfold running
  rw [slot?_enter]
  by_cases hy : y = x
  · rw [if_pos hy, if_pos hy]
  · rw [if_neg hy, if_neg hy]

theorem free_enter_lt (hx : x ∈ names) (hs : s.running x = false) :
    (s.enter x).free names < s.free names := by
  obtain ⟨before, after, rfl⟩ := List.append_of_mem hx
  have le (l : List SlotName) : (s.enter x).free l ≤ s.free l := by
    refine List.countP_mono_left fun y _ hy => ?_
    rw [running_enter] at hy
    by_cases h : y = x
    · rw [if_pos h] at hy
      cases hy
    · rwa [if_neg h] at hy
  have hb := le before
  have ha := le after
  have he : (s.enter x).running x = true := by rw [running_enter, if_pos rfl]
  unfold free at *
  simp only [List.countP_append, List.countP_cons, hs, he]
  simp
  omega

end Scope
end ResourceTemplate
