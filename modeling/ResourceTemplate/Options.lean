import ResourceTemplate.Instant
import ResourceTemplate.Json.Basic
import ResourceTemplate.Text.Character

namespace ResourceTemplate

structure SubscriptionOptions where
  subscriptionId : String := "ffffffff-ffff-ffff-ffff-ffffffffffff"
  tenantId : String := "ffffffff-ffff-ffff-ffff-ffffffffffff"
  displayName : String := "PSRule Test Subscription"
deriving Inhabited

structure ResourceGroupOptions where
  name : String := "ps-rule-test-rg"
  location : String := "eastus"
  managedBy : Option String := none
  tags : Entries Json := []
deriving Inhabited

structure Options where
  deploymentName : String := "ps-rule-test-deployment"
  subscription : SubscriptionOptions := {}
  resourceGroup : ResourceGroupOptions := {}
  tenantId : String := "ffffffff-ffff-ffff-ffff-ffffffffffff"
  managementGroup : String := "psrule-test"
  /-- Whether values at the paths of secrets are shown. -/
  keepSecretProperties : Bool := false
  utcNow : Instant := ⟨946684800, 0⟩
  /-- The greatest count of a copy loop. -/
  maxCopyCount : Nat := 800
  /-- How deep deployments may be nested. -/
  maxDepth : Nat := 16
  /-- Policy definitions to ignore besides those known. -/
  policyIgnore : List String := []
deriving Inhabited

namespace Options

inductive Fault where
  | empty (field : String)
  | zero (field : String)
deriving DecidableEq, Repr

def Fault.message : Fault → String
  | .empty field => field ++ " must not be empty"
  | .zero field => field ++ " must be greater than zero"

def isBlank (s : String) : Bool := (Blank.trim s).isEmpty

def validate (o : Options) : Except Fault Unit :=
  if isBlank o.deploymentName then .error (.empty "deploymentName")
  else if isBlank o.subscription.subscriptionId then .error (.empty "subscription.subscriptionId")
  else if o.maxDepth == 0 then .error (.zero "maxDepth")
  else .ok ()

end Options
end ResourceTemplate
