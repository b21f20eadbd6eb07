import ResourceTemplate.Deployment.Function
import ResourceTemplate.Deployment.Ledger
import ResourceTemplate.Deployment.Value

/-!
Expressions in a deployment. Parameters and variables are evaluated once, outside of all loops, and one
that is asked for while it is evaluated refers back to itself. A resource is found in the ledger; a
reference to one that is not declared gives a placeholder and is reported.
-/

namespace ResourceTemplate

abbrev Evaluation := (pointer : String) → Json → ScopeM Json

namespace Deployment

def setParameter (key : String) (slot : Slot) (s : Scope) : Scope :=
  { s with parameters := s.parameters.insert key slot }

def clearParameter (key : String) (s : Scope) : Scope :=
  { s with parameters := s.parameters.erase key }

/-- Keep the value of a parameter; that of a secure one is remembered. -/
def keepParameter (p : ParameterDefinition) (key : String) (v : Json) (s : Scope) : Scope :=
  setParameter key (.evaluated v) (if p.type.isSecure then s.remember v else s)

def defaultValue (eval : Evaluation) (p : ParameterDefinition) (key : String) (default : Json) :
    EvalM Scope Json := fun s =>
  let value := ScopeM.outsideLoops (eval ("/parameters/" ++ p.name ++ "/defaultValue") default)
  match value.toEval.run.run (setParameter key .inProgress s) with
  | (.error e, t) => (.error e, clearParameter key t)
  | (.ok v, t) =>
    match p.check v with
    | .error e => (.error e, clearParameter key t)
    | .ok () => (.ok v, t)

/-- The value of a declared parameter that is not kept yet: the caller's, else the default, else
null if that is allowed. -/
def freshParameter (d : Deployment) (eval : Evaluation) (p : ParameterDefinition) (key : String) :
    EvalM Scope Json :=
  match d.supplied.get? key, p.default with
  | some v, _ => return v
  | none, some default => defaultValue eval p key default
  | none, none => if p.nullable then return .null else throw (.missingRequiredParameter p.name)

def parameterValue (d : Deployment) (eval : Evaluation) (name : String) : EvalM Scope Json := do
  let key := Name.fold name
  match (← get).parameters.get? key with
  | some (.evaluated v) => return v
  | some .inProgress => throw (.cyclicVariableReference name)
  | none =>
    match d.template.parameter? name with
    | none => throw (.unknownParameter name)
    | some p =>
      let v ← d.freshParameter eval p key
      modify (keepParameter p key v)
      return v

def setVariable (key : String) (slot : Slot) (s : Scope) : Scope :=
  { s with vars := s.vars.insert key slot }

def clearVariable (key : String) (s : Scope) : Scope :=
  { s with vars := s.vars.erase key }

/-- A variable as it is declared: a value, or an entry of the copies of variables. -/
inductive VariableSource where
  | value (v : Json)
  | copy (entry : Json)

/-- The declaration of a variable; the copies are none themselves. -/
def variableSource? (d : Deployment) (name : String) : Option VariableSource :=
  if Name.same name "copy" then none
  else
    match Entries.getNamed? d.template.vars name with
    | some v => some (.value v)
    | none =>
      (d.variableCopies.find? fun es =>
        ((Entries.getNamed? es "name").bind Json.str?).any fun n => Name.same n name).map
          fun es => .copy (.obj es)

/-- The value of a declared variable, marked as under evaluation meanwhile and kept after. -/
def freshVariable (key : String) (value : ScopeM Json) : EvalM Scope Json := fun s =>
  match (ScopeM.outsideLoops value).toEval.run.run (setVariable key .inProgress s) with
  -- a failure is not kept: another attempt evaluates the variable again
  | (.error e, t) => (.error e, clearVariable key t)
  | (.ok v, t) => (.ok v, setVariable key (.evaluated v) t)

/-- The value of a variable; `evalCopy` evaluates an entry of copies. -/
def variableValue (d : Deployment) (eval : Evaluation)
    (evalCopy : (pointer : String) → Json → ScopeM (String × Json)) (name : String) :
    EvalM Scope Json := do
  let key := Name.fold name
  match (← get).vars.get? key with
  | some (.evaluated v) => return v
  | some .inProgress => throw (.cyclicVariableReference name)
  | none =>
    match d.variableSource? name with
    | none => throw (.unknownVariable name)
    | some (.value v) => freshVariable key (eval ("/variables/" ++ name) v)
    | some (.copy entry) => freshVariable key (do return (← evalCopy "/variables/copy" entry).2)

def resolve (d : Deployment) (l : Ledger) (view : ResourceValue → Json) (target : String) :
    EvalM Scope Json := do
  match l.find target with
  | .error fault => throw (.invalidArgument "reference" fault.message)
  | .ok (.found r) => return view r
  | .ok .pending => throw (.unresolvedSymbol target)
  | .ok .failed => throw (.dependencyFailed target)
  | .ok .skipped => throw (.conditionFalse target)
  | .ok .missing =>
    throw (.invalidArgument "reference" ("'" ++ target ++ "' is not bound to a resource"))
  | .ok .external =>
    modify fun s => s.report d.identity.name s.pointer (.externalReference target)
    return Placeholder.resource

variable [Reading]

/-- The host of the expressions of a deployment, given the values of parameters and variables. -/
def hostWith (d : Deployment) (l : Ledger) (parameter variableNamed : String → EvalM Scope Json) :
    Host Scope where
  parameterValue := parameter
  variableValue := variableNamed
  copyIndex loop s := s.copyIndex loop
  reference target full :=
    d.resolve l (if full then ResourceValue.toJson else ResourceValue.properties) target
  resourceInfo := d.resolve l ResourceValue.info
  userFunction := d.callFunction d.callDepth
  deployment _ := d.toJson
  subscription _ := d.subscription
  resourceGroup _ := d.resourceGroup
  tenant _ := d.tenant
  environment := publicCloud
  scopeLevel _ := d.identity.scopeLevel
  utcNow _ := d.options.utcNow
  newGuid := d.newGuid
  warn := d.warn

def evalOn (d : Deployment) (h : Host Scope) : Evaluation :=
  Value.eval d.options.maxCopyCount (Value.onHost h)

/-- The host of the expressions of a deployment. `depth` bounds the parameters and variables under
evaluation. -/
def hostAt (d : Deployment) (l : Ledger) : (depth : Nat) → Host Scope
  | 0 => d.hostWith l (fun _ => throw .callDepthExceeded) (fun _ => throw .callDepthExceeded)
  | depth + 1 =>
    d.hostWith l
      (d.parameterValue fun pointer v => d.evalOn (d.hostAt l depth) pointer v)
      (d.variableValue (fun pointer v => d.evalOn (d.hostAt l depth) pointer v)
        fun pointer v =>
          Value.evalCopy d.options.maxCopyCount (Value.onHost (d.hostAt l depth)) pointer v)

/-- The host of the expressions of a deployment. What is under evaluation cannot be evaluated
again, so that there is always depth left. -/
def host (d : Deployment) (l : Ledger) : Host Scope := d.hostAt l (d.slotCount + 1)

def eval (d : Deployment) (l : Ledger) : Evaluation := d.evalOn (d.host l)

def evalCount (d : Deployment) (l : Ledger) (pointer : String) (v : Json) : ScopeM Nat :=
  Value.evalCount d.options.maxCopyCount (Value.onHost (d.host l)) pointer v

end Deployment
end ResourceTemplate
