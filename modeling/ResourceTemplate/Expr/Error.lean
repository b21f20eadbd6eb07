import ResourceTemplate.Expr.Reader
import ResourceTemplate.Json.Basic
import ResourceTemplate.Text.Integer

namespace ResourceTemplate

inductive ExprError where
  | parse (error : Expr.SyntaxError)
  | unknownFunction (name : String) (position : Nat)
  | unresolvedSymbol (symbol : String)
  | typeMismatch (context expected found : String)
  | numericOverflow (operation : String)
  | argumentCount (function expected : String) (actual : Nat)
  | invalidArgument (function message : String)
  | missingProperty (property : String)
  | indexOutOfRange (index : Int) (length : Nat)
  | unknownParameter (name : String)
  | unknownVariable (name : String)
  | cyclicVariableReference (name : String)
  | missingRequiredParameter (name : String)
  | conditionFalse (symbol : String)
  | dependencyFailed (symbol : String)
  | copyIndexUnavailable (loop : Option String)
  | unknownLambdaVariable (name : String)
  | malformed (message : String)
  /-- Calls of user-defined functions are nested too deeply to be followed. -/
  | callDepthExceeded
  /-- The time was asked for in a date format that cannot be written. Evaluation is broken off, with all that it is part
  of: nothing goes on after it. -/
  | aborted (pattern : String)
deriving DecidableEq

namespace ExprError

instance : Inhabited ExprError := ⟨.malformed ""⟩

def message : ExprError → String
  | .parse e =>
    "Invalid expression at offset " ++ String.ofList (Integer.natText e.position) ++ ": " ++
      e.cause.message
  | .unknownFunction name position =>
    "Unknown function '" ++ name ++ "' at offset " ++ String.ofList (Integer.natText position)
  | .unresolvedSymbol symbol => "Symbol '" ++ symbol ++ "' is not bound yet"
  | .typeMismatch context expected found =>
    "Expected " ++ expected ++ " for " ++ context ++ ", found " ++ found
  | .numericOverflow operation => "Integer overflow in " ++ operation
  | .argumentCount function expected actual =>
    "Function '" ++ function ++ "' expects " ++ expected ++ " argument(s), got " ++
      String.ofList (Integer.natText actual)
  | .invalidArgument function message =>
    "Invalid argument for '" ++ function ++ "': " ++ message
  | .missingProperty property => "Property '" ++ property ++ "' does not exist"
  | .indexOutOfRange index length =>
    "Index " ++ String.ofList (Integer.text index) ++ " is out of range for length " ++
      String.ofList (Integer.natText length)
  | .unknownParameter name => "Parameter '" ++ name ++ "' is not declared"
  | .unknownVariable name => "Variable '" ++ name ++ "' is not declared"
  | .cyclicVariableReference name => "Variable '" ++ name ++ "' refers back to itself"
  | .missingRequiredParameter name => "Required parameter '" ++ name ++ "' has no value"
  | .conditionFalse symbol =>
    "Resource '" ++ symbol ++ "' is not deployed because its condition is false"
  | .dependencyFailed symbol => "Resource '" ++ symbol ++ "' failed to expand"
  | .copyIndexUnavailable none => "copyIndex() used outside of a copy loop"
  | .copyIndexUnavailable (some loop) => "copyIndex() used outside of copy loop '" ++ loop ++ "'"
  | .unknownLambdaVariable name => "Lambda variable '" ++ name ++ "' is not in scope"
  | .malformed message => "Malformed template: " ++ message
  | .callDepthExceeded => "Calls of user-defined functions are nested too deeply"
  | .aborted pattern => "The date format '" ++ pattern ++ "' cannot be written"

def isUnresolved : ExprError → Bool
  | .unresolvedSymbol _ => true
  | _ => false

def isAborted : ExprError → Bool
  | .aborted _ => true
  | _ => false

def mismatch (context expected : String) (found : Json) : ExprError :=
  .typeMismatch context expected found.typeName

end ExprError
end ResourceTemplate
