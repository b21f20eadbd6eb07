import ResourceTemplate.Policy

namespace ResourceTemplate

structure ResourceIdentity where
  id : String
  name : String
  type : String
  scope : String
deriving DecidableEq, Repr, Inhabited

mutual

/-- A value without null members at any depth; items of arrays stay. -/
def trimValue : Json → Json
  | .obj es => .obj (trimNulls es)
  | .arr items => .arr (trimItems items)
  | v => v

def trimNulls : List (String × Json) → List (String × Json)
  | [] => []
  | (k, v) :: rest => if v.isNull then trimNulls rest else (k, trimValue v) :: trimNulls rest

def trimItems : List Json → List Json
  | [] => []
  | v :: vs => trimValue v :: trimItems vs

end

structure ResourceValue where
  identity : ResourceIdentity
  apiVersion : Option String
  symbolicName : Option String
  copyIndex : Option Int
  dependsOn : List String
  /-- The deployment that declares the resource. -/
  deployment : String
  policyKind : Policy.DefinitionKind
  /-- The paths of values that were replaced. -/
  redacted : List String
  body : Entries Json

namespace ResourceValue

def isReserved (key : String) : Bool :=
  Name.same key "id" || Name.same key "scope" || Name.same key "dependsOn"

def makeBody (identity : ResourceIdentity) (evaluated : Entries Json) (dependsOn : List String) :
    Entries Json :=
  let own := (evaluated.filter fun e => !isReserved e.1).foldl
    (fun (acc : Entries Json) e => acc.insert e.1 e.2) [("id", .str identity.id)]
  let named : Entries Json := ((own.insert "name" (.str identity.name)).insert "type"
    (.str identity.type)).insert "scope" (.str identity.scope)
  trimNulls (if dependsOn.isEmpty then named
    else named.insert "dependsOn" (Json.strings dependsOn))

def make (identity : ResourceIdentity) (evaluated : Entries Json) (dependsOn : List String)
    (deployment : String) : ResourceValue :=
  let body := makeBody identity evaluated dependsOn
  { identity
    apiVersion := (body.get? "apiVersion").bind Json.str?
    symbolicName := none
    copyIndex := none
    dependsOn
    deployment
    policyKind := Policy.classify identity.type
    redacted := []
    body }

def id (r : ResourceValue) : String := r.identity.id

def name (r : ResourceValue) : String := r.identity.name

def properties (r : ResourceValue) : Json := (r.body.get? "properties").getD (.obj [])

def toJson (r : ResourceValue) : Json := .obj r.body

def info (r : ResourceValue) : Json :=
  .obj ([("id", .str r.identity.id), ("name", .str r.identity.name), ("type", .str r.identity.type)] ++
    (match r.apiVersion with
      | some v => [("apiVersion", .str v)]
      | none => []))

def isPolicyDefinition (r : ResourceValue) : Bool := r.policyKind != .unknown

end ResourceValue
end ResourceTemplate
