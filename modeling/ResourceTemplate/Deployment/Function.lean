import ResourceTemplate.Deployment.Basic
import ResourceTemplate.Expr.Value

namespace ResourceTemplate

namespace UserFunction

def qualifiedName (f : UserFunction) : String := f.ns ++ "." ++ f.name

def bindParameters (qualified : String) (acc : Entries Json) :
    List (String × ParameterType) → List Json → Except ExprError (Entries Json)
  | (name, type) :: params, v :: values =>
    if type.accepts v then bindParameters qualified (acc.insert (Name.fold name) v) params values
    else .error (.mismatch ("parameter '" ++ name ++ "' of " ++ qualified) type.name v)
  | _, _ => .ok acc

def unavailable {α : Type} (f : UserFunction) (what : String) : EvalM Scope α :=
  throw (.invalidArgument what
    ("not available inside user-defined function '" ++ f.qualifiedName ++ "'"))

/-- The surroundings of the body of a function that is called with values for its parameters;
`call` calls another function. -/
def bodyHost (d : Deployment) (call : String → String → List Json → EvalM Scope Json)
    (f : UserFunction) (arguments : Entries Json) : Host Scope where
  parameterValue name := Host.lift
    (match arguments.get? (Name.fold name) with
      | some v => .ok v
      | none => .error (.unknownParameter name))
  variableValue _ := f.unavailable "variables"
  copyIndex loop _ := .error (.copyIndexUnavailable loop)
  reference _ _ := f.unavailable "reference"
  resourceInfo _ := f.unavailable "resourceInfo"
  userFunction := call
  deployment _ := d.toJson
  subscription _ := d.subscription
  resourceGroup _ := d.resourceGroup
  tenant _ := d.tenant
  environment := publicCloud
  scopeLevel _ := d.identity.scopeLevel
  utcNow _ := d.options.utcNow
  newGuid := d.newGuid
  warn := d.warn

end UserFunction

namespace Deployment

variable [Reading]

/-- Call a function of the template, named by its caller, whose body calls others by `call`. -/
def applyFunction (d : Deployment) (call : String → String → List Json → EvalM Scope Json)
    (ns name : String) (arguments : List Json) : EvalM Scope Json := do
  let qualified := ns ++ "." ++ name
  match d.template.function? ns name with
  | none => throw (.unknownFunction qualified 0)
  | some f =>
    if arguments.length ≠ f.parameters.length then
      throw (.argumentCount qualified (String.ofList (Integer.natText f.parameters.length))
        arguments.length)
    let bound ← Host.lift (UserFunction.bindParameters qualified [] f.parameters arguments)
    let v ← evalValue (f.bodyHost d call bound) f.output
    if f.outputType.accepts v then return v
    else throw (.mismatch ("output of " ++ qualified) f.outputType.name v)

/-- Call a function of the template. `depth` bounds the calls within calls. -/
def callFunction (d : Deployment) :
    (depth : Nat) → (ns name : String) → List Json → EvalM Scope Json
  | 0, _, _, _ => throw .callDepthExceeded
  | depth + 1, ns, name, arguments => d.applyFunction (d.callFunction depth) ns name arguments

/-- How deep calls may be nested: functions that do not call themselves never get so deep. -/
def callDepth (d : Deployment) : Nat := d.template.functions.length + 1000

end Deployment
end ResourceTemplate
