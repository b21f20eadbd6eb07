import ResourceTemplate.Expr.Error

/-!
Resource ids. An id interleaves the segments of a resource's type with those of its name below the
id of a scope: `Microsoft.Network/virtualNetworks/subnets` named `vnet/default` is found at
`providers/Microsoft.Network/virtualNetworks/vnet/subnets/default`.
-/

namespace ResourceTemplate

inductive ScopeLevel where
  | tenant
  | managementGroup
  | subscription
  | resourceGroup
deriving DecidableEq, Repr, Inhabited

namespace ScopeLevel

def name : ScopeLevel → String
  | .tenant => "tenant"
  | .managementGroup => "managementGroup"
  | .subscription => "subscription"
  | .resourceGroup => "resourceGroup"

/-- The level named by a template's schema; a schema that names none is that of a resource group. -/
def ofSchema (schema : String) : ScopeLevel :=
  let text := (Name.fold schema).toList
  let mentions (s : String) : Bool := Text.contains s.toList text
  if mentions "/subscriptiondeploymenttemplate.json" then .subscription
  else if mentions "/managementgroupdeploymenttemplate.json" then .managementGroup
  else if mentions "/tenantdeploymenttemplate.json" then .tenant
  else .resourceGroup

end ScopeLevel

namespace ResourceId

def resourceGroupType : String := "Microsoft.Resources/resourceGroups"
def deploymentType : String := "Microsoft.Resources/deployments"
def managementGroupType : String := "Microsoft.Management/managementGroups"

inductive Fault where
  | invalidType (resourceType : String)
  | nameCountMismatch (resourceType : String) (expected actual : Nat)
deriving DecidableEq, Repr

def Fault.message : Fault → String
  | .invalidType t => "resource type '" ++ t ++ "' must be in the form '<namespace>/<type>'"
  | .nameCountMismatch t expected actual =>
    "resource type '" ++ t ++ "' needs " ++ String.ofList (Integer.natText expected) ++
      " name segment(s), got " ++ String.ofList (Integer.natText actual)

def Fault.toExprError (fault : Fault) (function : String) : ExprError :=
  .invalidArgument function fault.message

def splitType (resourceType : String) : Except Fault (String × List String) :=
  match Text.splitChar '/' resourceType with
  | ns :: types =>
    if ns.isEmpty || types.isEmpty || types.any String.isEmpty then .error (.invalidType resourceType)
    else .ok (ns, types)
  | [] => .error (.invalidType resourceType)

def splitName (name : String) : List String := Text.splitChar '/' name

/-- `providers/{namespace}/{type}/{name}/…` with a name for every type segment. -/
def providerPath (resourceType : String) (names : List String) : Except Fault String := do
  let (ns, types) ← splitType resourceType
  if types.length ≠ names.length then
    .error (.nameCountMismatch resourceType types.length names.length)
  else
    let segments := (types.zip names).map fun (t, n) => "/" ++ t ++ "/" ++ n
    .ok ("providers/" ++ ns ++ String.join segments)

def subscriptionScope (subscriptionId : String) : String := "/subscriptions/" ++ subscriptionId

def resourceGroupScope (subscriptionId resourceGroup : String) : String :=
  "/subscriptions/" ++ subscriptionId ++ "/resourceGroups/" ++ resourceGroup

def managementGroupScope (managementGroup : String) : String :=
  "/providers/" ++ managementGroupType ++ "/" ++ managementGroup

def trimSlashes (id : String) : String :=
  String.ofList ((id.toList.reverse.dropWhile (· == '/')).reverse)

/-- The id of a resource under a scope; the empty scope is the tenant root. A resource group takes
the short form. -/
def under (scope resourceType : String) (names : List String) : Except Fault String :=
  let scope := trimSlashes scope
  if Name.same resourceType resourceGroupType then
    match names with
    | [name] => .ok (scope ++ "/resourceGroups/" ++ name)
    | _ => .error (.nameCountMismatch resourceType 1 names.length)
  else (providerPath resourceType names).map fun path => scope ++ "/" ++ path

def same (a b : String) : Bool := Name.same (trimSlashes a) (trimSlashes b)

end ResourceId
end ResourceTemplate
