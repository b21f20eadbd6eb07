import ResourceTemplate.Options
import ResourceTemplate.Resource
import ResourceTemplate.ResourceId

namespace ResourceTemplate

structure DeploymentIdentity where
  name : String
  subscriptionId : String
  subscriptionName : String
  tenantId : String
  resourceGroup : String
  location : String
  managementGroup : String
  scopeLevel : ScopeLevel
  /-- The deployment that declares this one. -/
  parent : Option String
deriving DecidableEq, Repr

namespace DeploymentIdentity

def root (o : Options) (level : ScopeLevel) : DeploymentIdentity where
  name := o.deploymentName
  subscriptionId := o.subscription.subscriptionId
  subscriptionName := o.subscription.displayName
  tenantId := o.tenantId
  resourceGroup := o.resourceGroup.name
  location := o.resourceGroup.location
  managementGroup := o.managementGroup
  scopeLevel := level
  parent := none

def scopeId (d : DeploymentIdentity) : String :=
  match d.scopeLevel with
  | .resourceGroup => ResourceId.resourceGroupScope d.subscriptionId d.resourceGroup
  | .subscription => ResourceId.subscriptionScope d.subscriptionId
  | .managementGroup => ResourceId.managementGroupScope d.managementGroup
  | .tenant => "/"

/-- The scope of a resource without a scope of its own. A given resource group or subscription
takes the place of that of the deployment. -/
def scopeWith (d : DeploymentIdentity) (resourceGroup subscriptionId : Option String) : String :=
  let subscription := subscriptionId.getD d.subscriptionId
  match resourceGroup with
  | some group => ResourceId.resourceGroupScope subscription group
  | none =>
    match d.scopeLevel, subscriptionId with
    | .resourceGroup, _ => ResourceId.resourceGroupScope subscription d.resourceGroup
    | .subscription, _ => ResourceId.subscriptionScope subscription
    | _, some _ => ResourceId.subscriptionScope subscription
    | .managementGroup, none => ResourceId.managementGroupScope d.managementGroup
    | .tenant, none => "/"

/-- The scope of a resource. A scope of its own makes it an extension of another resource; one
that does not begin with a slash is taken from the scope of the deployment. -/
def resourceScope (d : DeploymentIdentity) (scope resourceGroup subscriptionId : Option String) :
    String :=
  match scope with
  | some s =>
    if s.toList.head? == some '/' then s
    else ResourceId.trimSlashes d.scopeId ++ "/providers/" ++ s
  | none => d.scopeWith resourceGroup subscriptionId

def resourceIdentity (d : DeploymentIdentity) (type name : String)
    (scope resourceGroup subscriptionId : Option String) : Except ExprError ResourceIdentity :=
  let scope := d.resourceScope scope resourceGroup subscriptionId
  match ResourceId.under scope type (ResourceId.splitName name) with
  | .ok id => .ok ⟨id, name, type, scope⟩
  | .error fault => .error (fault.toExprError "resourceId")

end DeploymentIdentity
end ResourceTemplate
