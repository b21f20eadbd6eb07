import ResourceTemplate.Expr.Error
import ResourceTemplate.Symbols

namespace ResourceTemplate

inductive FailureKind where
  | unknownFunction
  | unresolvedSymbol
  | symbolKindConflict
  | cyclicDependency
  | cyclicVariableReference
  | missingRequiredParameter
  | typeMismatch
  | numericOverflow
  | malformedTemplate
  | dependencyFailed
deriving DecidableEq, Repr

def FailureKind.name : FailureKind → String
  | .unknownFunction => "UnknownFunction"
  | .unresolvedSymbol => "UnresolvedSymbol"
  | .symbolKindConflict => "SymbolKindConflict"
  | .cyclicDependency => "CyclicDependency"
  | .cyclicVariableReference => "CyclicVariableReference"
  | .missingRequiredParameter => "MissingRequiredParameter"
  | .typeMismatch => "TypeMismatch"
  | .numericOverflow => "NumericOverflow"
  | .malformedTemplate => "MalformedTemplate"
  | .dependencyFailed => "DependencyFailed"

inductive ExpandError where
  /-- An expression of the value at a pointer into the template. -/
  | expression (pointer : String) (source : ExprError)
  | symbol (fault : SymbolFault)
  /-- Declarations that wait for each other. -/
  | cyclicDependency (labels : List String)
  | malformedTemplate (pointer message : String)
  | dependencyFailed (dependency : String)
  | depthExceeded (name : String) (maxDepth : Nat)
deriving DecidableEq

namespace ExpandError

instance : Inhabited ExpandError := ⟨.malformedTemplate "" ""⟩

def message : ExpandError → String
  | .expression pointer source => pointer ++ ": " ++ source.message
  | .symbol fault => fault.message
  | .cyclicDependency labels =>
    "Circular dependency detected: " ++ " → ".intercalate labels
  | .malformedTemplate pointer message => "Malformed template at " ++ pointer ++ ": " ++ message
  | .dependencyFailed dependency => "Depends on '" ++ dependency ++ "' which failed to expand"
  | .depthExceeded name maxDepth =>
    "Nested deployment '" ++ name ++ "' exceeds the maximum depth of " ++
      String.ofList (Integer.natText maxDepth)

def kindOfExpression : ExprError → FailureKind
  | .unknownFunction .. => .unknownFunction
  | .unresolvedSymbol _ => .unresolvedSymbol
  | .cyclicVariableReference _ => .cyclicVariableReference
  | .missingRequiredParameter _ => .missingRequiredParameter
  | .numericOverflow _ => .numericOverflow
  | .typeMismatch .. => .typeMismatch
  | .argumentCount .. => .typeMismatch
  | .invalidArgument .. => .typeMismatch
  | .missingProperty _ => .typeMismatch
  | .indexOutOfRange .. => .typeMismatch
  | .conditionFalse _ => .dependencyFailed
  | .dependencyFailed _ => .dependencyFailed
  | .parse _ => .malformedTemplate
  | .unknownParameter _ => .malformedTemplate
  | .unknownVariable _ => .malformedTemplate
  | .copyIndexUnavailable _ => .malformedTemplate
  | .unknownLambdaVariable _ => .malformedTemplate
  | .malformed _ => .malformedTemplate
  | .callDepthExceeded => .malformedTemplate
  | .aborted _ => .malformedTemplate

def kind : ExpandError → FailureKind
  | .expression _ source => kindOfExpression source
  | .symbol (.kindConflict ..) => .symbolKindConflict
  | .symbol (.alreadyBound ..) => .symbolKindConflict
  | .symbol (.unknown _) => .unresolvedSymbol
  | .symbol (.indexOutOfRange ..) => .malformedTemplate
  | .cyclicDependency _ => .cyclicDependency
  | .malformedTemplate .. => .malformedTemplate
  | .dependencyFailed _ => .dependencyFailed
  | .depthExceeded .. => .malformedTemplate

def isAborted : ExpandError → Bool
  | .expression _ source => source.isAborted
  | _ => false

def isStructural : ExpandError → Bool
  | .expression _ source => source.isAborted
  | .cyclicDependency _ => true
  | .symbol (.kindConflict ..) => true
  | .symbol (.alreadyBound ..) => true
  | .malformedTemplate .. => true
  | .depthExceeded .. => true
  | _ => false

def isUnresolved : ExpandError → Bool
  | .expression _ source => source.isUnresolved
  | _ => false

/-- A result as a value, whatever it is; but what was broken off stays so. -/
def caught {α : Type} : Except ExpandError α → Except ExpandError (Except ExpandError α)
  | .ok a => .ok (.ok a)
  | .error e => if e.isAborted then .error e else .ok (.error e)

end ExpandError

inductive FailureSubject where
  | resource (name : String)
  | output (name : String)
deriving DecidableEq, Repr

def FailureSubject.text : FailureSubject → String
  | .resource name => "resource '" ++ name ++ "'"
  | .output name => "output '" ++ name ++ "'"

/-- A resource or output that could not be expanded. -/
structure ExpansionFailure where
  deployment : String
  subject : FailureSubject
  error : ExpandError
deriving DecidableEq

def ExpansionFailure.text (f : ExpansionFailure) : String :=
  f.subject.text ++ " in deployment '" ++ f.deployment ++ "': " ++ f.error.message

end ResourceTemplate
