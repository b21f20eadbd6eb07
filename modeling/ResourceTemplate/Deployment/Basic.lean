import ResourceTemplate.Codec.Guid
import ResourceTemplate.Deployment.Identity
import ResourceTemplate.Deployment.Scope
import ResourceTemplate.Json.Printer
import ResourceTemplate.Template.Basic

namespace ResourceTemplate

namespace ParameterDefinition

/-- Whether a value is one of the allowed values. An array is checked item by item unless an
allowed value is an array. -/
def isAllowed (allowed : List Json) (v : Json) : Bool :=
  match v with
  | .arr items =>
    if allowed.any fun a => a.arr?.isSome then Json.elemAlike v allowed
    else items.all fun x => Json.elemAlike x allowed
  | v => Json.elemAlike v allowed

def check (p : ParameterDefinition) (v : Json) : Except ExprError Unit :=
  if v.isNull && p.nullable then .ok ()
  else if !p.type.accepts v then
    .error (.mismatch ("parameter '" ++ p.name ++ "'") p.type.name v)
  else
    match p.allowed with
    | none => .ok ()
    | some allowed =>
      if isAllowed allowed v then .ok ()
      else .error (.invalidArgument "parameters"
        ("value " ++ v.compress ++ " for '" ++ p.name ++ "' is not one of the allowed values"))

end ParameterDefinition

/-- A template, where it runs, and what its caller supplies. -/
structure Deployment where
  template : Template
  options : Options
  identity : DeploymentIdentity
  /-- The checked values of the caller, under folded names. -/
  supplied : Entries Json

namespace Deployment

/-- Take the values of a caller in turn. Each must fit its declaration; values that no parameter
takes are reported. -/
def takeSupplied (t : Template) (deployment : String) (acc : Entries Json) :
    List (String × Json) → ScopeM (Entries Json)
  | [] => return acc
  | (name, v) :: rest => do
    let pointer := "/parameters/" ++ name
    match t.parameter? name with
    | none =>
      ScopeM.report deployment pointer (.unknownParameterValue name)
      takeSupplied t deployment acc rest
    | some p =>
      ScopeM.lift ((p.check v).mapError (.expression pointer))
      takeSupplied t deployment (acc.insert (Name.fold name) v) rest

def create (t : Template) (o : Options) (identity : DeploymentIdentity) (values : Entries Json) :
    ScopeM Deployment := do
  return ⟨t, o, identity, ← takeSupplied t identity.name [] values⟩

def report (d : Deployment) (pointer : String) (x : Diagnostic) : ScopeM Unit :=
  ScopeM.report d.identity.name pointer x

def variableCopies (d : Deployment) : List (Entries Json) :=
  match Entries.getNamed? d.template.vars "copy" with
  | some (.arr entries) => entries.filterMap Json.obj?
  | _ => []

/-- A bound on the parameters and variables that can be under evaluation at once. -/
def slotCount (d : Deployment) : Nat :=
  d.template.parameters.length + d.template.vars.length + d.variableCopies.length

def toJson (d : Deployment) : Json :=
  let raw := (d.template.raw.obj?).getD []
  let template := if (Entries.spelling? raw "contentVersion").isSome then raw
    else raw.insert "contentVersion" (.str "1.0.0.0")
  .obj ([("name", .str d.identity.name),
    ("properties", .obj
      [("template", .obj template), ("parameters", .obj []), ("mode", .str "Incremental"),
       ("provisioningState", .str "Accepted")])] ++
    if d.identity.scopeLevel = .resourceGroup then []
    else [("location", .str d.identity.location)])

def subscription (d : Deployment) : Json := .obj
  [("id", .str (ResourceId.subscriptionScope d.identity.subscriptionId)),
   ("subscriptionId", .str d.identity.subscriptionId), ("tenantId", .str d.identity.tenantId),
   ("displayName", .str d.identity.subscriptionName)]

def resourceGroup (d : Deployment) : Json := .obj
  ([("id", .str (ResourceId.resourceGroupScope d.identity.subscriptionId d.identity.resourceGroup)),
    ("name", .str d.identity.resourceGroup), ("type", .str ResourceId.resourceGroupType),
    ("location", .str d.identity.location), ("tags", .obj d.options.resourceGroup.tags),
    ("properties", .obj [("provisioningState", .str "Succeeded")])] ++
    match d.options.resourceGroup.managedBy with
    | some manager => [("managedBy", .str manager)]
    | none => [])

def tenant (d : Deployment) : Json := .obj
  [("id", .str ("/tenants/" ++ d.identity.tenantId)), ("tenantId", .str d.identity.tenantId)]

def managementGroup (d : Deployment) : Json := .obj
  [("id", .str (ResourceId.managementGroupScope d.identity.managementGroup)),
   ("name", .str d.identity.managementGroup), ("type", .str ResourceId.managementGroupType),
   ("properties", .obj [("tenantId", .str d.identity.tenantId)])]

def newGuid (d : Deployment) (s : Scope) : String × Scope :=
  let n := s.guids + 1
  (Guid.ofName (d.identity.name ++ "/" ++ String.ofList (Integer.natText n)), { s with guids := n })

def warn (d : Deployment) (text : String) (s : Scope) : Scope :=
  s.report d.identity.name s.pointer (.warning .expressionWarning text)

end Deployment
end ResourceTemplate
