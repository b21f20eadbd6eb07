import ResourceTemplate.Options
import ResourceTemplate.Yaml.Reader

namespace ResourceTemplate.Options

/-- The fields of a mapping; nothing at all has none. A field of these names is given at most
once. -/
def fields? (names : List String) (v : Yaml) : Option (Entries Yaml) := do
  let es ← match v with
    | .map entries => entries.mapM fun (k, v) => k.text?.map fun name => (name, v)
    | .plain "" => some []
    | _ => none
  if names.all fun name => (es.filter fun e => e.1 == name).length ≤ 1 then return es else none

def field? {α : Type} (es : Entries Yaml) (name : String) (read : Yaml → Option α) (default : α) :
    Option α :=
  match es.get? name with
  | some v => read v
  | none => some default

def readFlag? : Yaml → Option Bool
  | .plain s => Yaml.boolOf? s
  | _ => none

def readCount? : Yaml → Option Nat
  | .plain s => (Yaml.natural? s).filter (· ≤ Integer.maxNat64)
  | _ => none

def readInstant? (v : Yaml) : Option Instant := v.text?.bind Instant.parseRelaxed?

def readOptionalText? : Yaml → Option (Option String)
  | .plain s => some (if Yaml.isNullText s then none else some s)
  | v => v.text?.map some

def readTexts? : Yaml → Option (List String)
  | .seq items => items.mapM Yaml.text?
  | .plain "" => some []
  | _ => none

def readTags? : Yaml → Option (Entries Json)
  | .map entries => Yaml.entriesJson? [] entries
  | .plain "" => some []
  | _ => none

def readSubscription? (v : Yaml) : Option SubscriptionOptions := do
  let base : SubscriptionOptions := {}
  let es ← fields? ["subscriptionId", "tenantId", "displayName"] v
  return {
    subscriptionId := ← field? es "subscriptionId" Yaml.text? base.subscriptionId
    tenantId := ← field? es "tenantId" Yaml.text? base.tenantId
    displayName := ← field? es "displayName" Yaml.text? base.displayName }

def readResourceGroup? (v : Yaml) : Option ResourceGroupOptions := do
  let base : ResourceGroupOptions := {}
  let es ← fields? ["name", "location", "managedBy", "tags"] v
  return {
    name := ← field? es "name" Yaml.text? base.name
    location := ← field? es "location" Yaml.text? base.location
    managedBy := ← field? es "managedBy" readOptionalText? base.managedBy
    tags := ← field? es "tags" readTags? base.tags }

def fieldNames : List String :=
  ["deploymentName", "subscription", "resourceGroup", "tenantId", "managementGroup",
    "keepSecretProperties", "utcNow", "maxCopyCount", "maxDepth", "policyIgnore"]

def ofYaml? (v : Yaml) : Option Options := do
  let base : Options := {}
  let es ← fields? fieldNames v
  return {
    deploymentName := ← field? es "deploymentName" Yaml.text? base.deploymentName
    subscription := ← field? es "subscription" readSubscription? base.subscription
    resourceGroup := ← field? es "resourceGroup" readResourceGroup? base.resourceGroup
    tenantId := ← field? es "tenantId" Yaml.text? base.tenantId
    managementGroup := ← field? es "managementGroup" Yaml.text? base.managementGroup
    keepSecretProperties :=
      ← field? es "keepSecretProperties" readFlag? base.keepSecretProperties
    utcNow := ← field? es "utcNow" readInstant? base.utcNow
    maxCopyCount := ← field? es "maxCopyCount" readCount? base.maxCopyCount
    maxDepth := ← field? es "maxDepth" readCount? base.maxDepth
    policyIgnore := ← field? es "policyIgnore" readTexts? base.policyIgnore }

inductive TextFault where
  | unreadable
  | invalid (fault : Fault)
deriving DecidableEq, Repr

def TextFault.message : TextFault → String
  | .unreadable => "Failed to parse expansion options"
  | .invalid fault => fault.message

def parse (text : String) : Except TextFault Options :=
  match (Yaml.parse? text).bind ofYaml? with
  | none => .error .unreadable
  | some o =>
    match o.validate with
    | .ok () => .ok o
    | .error fault => .error (.invalid fault)

end ResourceTemplate.Options
