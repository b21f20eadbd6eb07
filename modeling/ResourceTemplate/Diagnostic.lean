import ResourceTemplate.Failure

namespace ResourceTemplate

inductive Severity where
  | error
  | warning
  | info
deriving DecidableEq, Repr

def Severity.name : Severity → String
  | .error => "Error"
  | .warning => "Warning"
  | .info => "Info"

inductive DiagnosticCode where
  | expressionWarning
  | externalReference
  | unknownParameterValue
  | unmatchedDependency
  | linkedTemplateUnavailable
  | resourceFailed
  | outputFailed
deriving DecidableEq, Repr

def DiagnosticCode.name : DiagnosticCode → String
  | .expressionWarning => "ExpressionWarning"
  | .externalReference => "ExternalReference"
  | .unknownParameterValue => "UnknownParameterValue"
  | .unmatchedDependency => "UnmatchedDependency"
  | .linkedTemplateUnavailable => "LinkedTemplateUnavailable"
  | .resourceFailed => "ResourceFailed"
  | .outputFailed => "OutputFailed"

structure TemplateLocation where
  deployment : String
  pointer : String
deriving DecidableEq, Repr

structure Diagnostic where
  severity : Severity
  code : DiagnosticCode
  message : String
  location : Option TemplateLocation := none
deriving DecidableEq, Repr

namespace Diagnostic

def error (code : DiagnosticCode) (message : String) : Diagnostic := ⟨.error, code, message, none⟩

def warning (code : DiagnosticCode) (message : String) : Diagnostic :=
  ⟨.warning, code, message, none⟩

def located (d : Diagnostic) (deployment pointer : String) : Diagnostic :=
  match d.location with
  | some _ => d
  | none => { d with location := some ⟨deployment, pointer⟩ }

def externalReference (target : String) : Diagnostic :=
  warning .externalReference
    ("'" ++ target ++ "' is not declared in this template; reference() returns a placeholder")

def unknownParameterValue (name : String) : Diagnostic :=
  warning .unknownParameterValue ("Parameter '" ++ name ++ "' is not declared by the template")

def unmatchedDependency (resource dependency : String) : Diagnostic :=
  warning .unmatchedDependency
    ("Resource '" ++ resource ++ "' depends on '" ++ dependency ++
      "' which is not declared in this template")

def linkedTemplateUnavailable (deployment reason : String) : Diagnostic :=
  warning .linkedTemplateUnavailable
    ("Linked template for deployment '" ++ deployment ++ "' was not expanded: " ++ reason)

end Diagnostic
end ResourceTemplate
