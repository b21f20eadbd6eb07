import ResourceTemplate.Deployment.Preview
import ResourceTemplate.Diagnostic
import ResourceTemplate.Loader
import ResourceTemplate.Redaction
import ResourceTemplate.Resource
import ResourceTemplate.ResourceId

namespace ResourceTemplate

structure ExpandedDeployment where
  name : String
  resources : List ResourceValue
  outputs : Entries Json
  /-- The resources and outputs that could not be expanded. -/
  failures : List ExpansionFailure
  diagnostics : List Diagnostic
  symbols : SymbolTable

namespace ExpandedDeployment

def output? (x : ExpandedDeployment) (name : String) : Option Json := x.outputs.getNamed? name

def resource? (x : ExpandedDeployment) (id : String) : Option ResourceValue :=
  x.resources.find? fun r => ResourceId.same r.identity.id id

def isComplete (x : ExpandedDeployment) : Bool := x.failures.isEmpty

def policyDefinitions (x : ExpandedDeployment) (ignored : Policy.IgnoreIndex) :
    List ResourceValue :=
  x.resources.filter fun r =>
    r.isPolicyDefinition && !ignored.isIgnored r.identity.id &&
      !ignored.isIgnored ("/providers/" ++ r.identity.type ++ "/" ++ r.identity.name)

def toJson (x : ExpandedDeployment) : Json := .arr (x.resources.map ResourceValue.toJson)

end ExpandedDeployment

structure Expander where
  options : Options
  secrets : SecretRegistry
  ignored : Policy.IgnoreIndex
  /-- The source of linked templates, if there is one. -/
  loader : Option Loader

namespace Expander

def ofOptions (o : Options) : Except Options.Fault Expander :=
  o.validate.map fun () =>
    { options := o
      secrets := SecretRegistry.builtin
      ignored := Policy.IgnoreIndex.builtin.withConfigured o.policyIgnore
      loader := none }

/-- The expansion of a nested deployment: of a template, where it runs, with values of its caller,
after the diagnostics reported so far. It gives the diagnostics reported until its end. -/
abbrev Nested := Template → DeploymentIdentity → Entries Json → List Diagnostic →
  Except ExpandError ExpandedDeployment × List Diagnostic

end Expander
end ResourceTemplate
