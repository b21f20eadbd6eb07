import ResourceTemplate.Json.Basic
import ResourceTemplate.ResourceId

namespace ResourceTemplate

inductive ParameterType where
  | string
  | secureString
  | int
  | bool
  | object
  | secureObject
  | array
deriving DecidableEq, Repr

namespace ParameterType

def name : ParameterType → String
  | .string => "string"
  | .secureString => "securestring"
  | .int => "int"
  | .bool => "bool"
  | .object => "object"
  | .secureObject => "secureObject"
  | .array => "array"

def all : List ParameterType :=
  [.string, .secureString, .int, .bool, .object, .secureObject, .array]

def ofName? (name : String) : Option ParameterType := all.find? fun t => Name.same t.name name

def isSecure : ParameterType → Bool
  | .secureString => true
  | .secureObject => true
  | _ => false

def accepts (t : ParameterType) (v : Json) : Bool :=
  match t, v with
  | .string, .str _ => true
  | .secureString, .str _ => true
  | .int, .num n => n.toInt64?.isSome
  | .bool, .bool _ => true
  | .object, .obj _ => true
  | .secureObject, .obj _ => true
  | .array, .arr _ => true
  | _, _ => false

end ParameterType

structure ParameterDefinition where
  name : String
  type : ParameterType
  default : Option Json
  allowed : Option (List Json)
  nullable : Bool

structure UserFunction where
  ns : String
  name : String
  parameters : List (String × ParameterType)
  outputType : ParameterType
  output : Json

/-- A copy loop of a declaration; its count may be an expression. -/
structure CopyLoop where
  name : String
  count : Json

structure ResourceDeclaration where
  /-- The key in a template whose resources are keyed. -/
  symbolicName : Option String
  /-- The position in the list of declarations. -/
  ordinal : Nat
  /-- Where the declaration stands in the template. -/
  pointer : String
  /-- The declaration without what steers its expansion. -/
  body : Entries Json
  copy : Option CopyLoop
  condition : Option Json
  existing : Bool
  dependsOn : List Json
  /-- The ordinal of the declaration this one stands in. -/
  parent : Option Nat

namespace ResourceDeclaration

/-- The symbol that the declaration binds: its key, else the name of its loop. -/
def symbol? (d : ResourceDeclaration) : Option String :=
  match d.symbolicName with
  | some s => some s
  | none => d.copy.map CopyLoop.name

def rawType? (d : ResourceDeclaration) : Option String := (d.body.get? "type").bind Json.str?

def rawName? (d : ResourceDeclaration) : Option String := (d.body.get? "name").bind Json.str?

def describe (d : ResourceDeclaration) : String :=
  match d.symbol?, d.rawName? with
  | some symbol, _ => symbol
  | none, some name => name
  | none, none => d.pointer

end ResourceDeclaration

structure OutputCopy where
  count : Json
  input : Json

structure OutputDefinition where
  name : String
  type : Option ParameterType
  value : Option Json
  condition : Option Json
  copy : Option OutputCopy

structure Template where
  schema : Option String
  scopeLevel : ScopeLevel
  languageVersion : Option String
  contentVersion : Option String
  parameters : List ParameterDefinition
  /-- The variables, with their copy loops if there are any. -/
  vars : Entries Json
  functions : List UserFunction
  resources : List ResourceDeclaration
  outputs : List OutputDefinition
  /-- Whether the resources are keyed. -/
  symbolic : Bool
  /-- The template as it was given. -/
  raw : Json

namespace Template

def parameter? (t : Template) (name : String) : Option ParameterDefinition :=
  t.parameters.find? fun p => Name.same p.name name

def output? (t : Template) (name : String) : Option OutputDefinition :=
  t.outputs.find? fun o => Name.same o.name name

def function? (t : Template) (ns name : String) : Option UserFunction :=
  t.functions.find? fun f => Name.same f.ns ns && Name.same f.name name

end Template
end ResourceTemplate
