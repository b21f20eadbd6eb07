import ResourceTemplate.Failure
import ResourceTemplate.Json.Reader
import ResourceTemplate.Template.Basic

namespace ResourceTemplate.Template

abbrev Read := Except ExpandError

def malformed {α : Type} (pointer message : String) : Read α :=
  .error (.malformedTemplate pointer message)

def field? (es : Entries Json) (name : String) : Option Json := es.getNamed? name

def stringField? (es : Entries Json) (name : String) : Option String :=
  (field? es name).bind Json.str?

def objectAt (pointer message : String) : Json → Read (Entries Json)
  | .obj es => .ok es
  | _ => malformed pointer message

def readType (v : Option Json) (pointer : String) : Read ParameterType :=
  match v.bind Json.str? with
  | none => malformed pointer "missing 'type'"
  | some name =>
    match ParameterType.ofName? name with
    | some t => .ok t
    | none => malformed pointer ("unknown type '" ++ name ++ "'")

def readParameter (name : String) (v : Json) : Read ParameterDefinition := do
  let pointer := "/parameters/" ++ name
  let es ← objectAt pointer "must be an object" v
  let allowed ← match field? es "allowedValues" with
    | none => pure none
    | some (.arr values) => pure (some values)
    | some _ => malformed (pointer ++ "/allowedValues") "must be an array"
  let type ← readType (field? es "type") pointer
  return {
    name
    type
    default := field? es "defaultValue"
    allowed
    nullable := ((field? es "nullable").bind Json.bool?).getD false }

/-- The parameters of a function; `j` counts those before. -/
def readFunctionParameters (pointer : String) :
    (j : Nat) → List Json → Read (List (String × ParameterType))
  | _, [] => .ok []
  | j, v :: vs => do
    let here := pointer ++ "/parameters/" ++ String.ofList (Integer.natText j)
    let es ← objectAt here "must be an object" v
    match stringField? es "name" with
    | none => malformed here "missing 'name'"
    | some name =>
      let type ← readType (field? es "type") here
      return (name, type) :: (← readFunctionParameters pointer (j + 1) vs)

def readFunction (ns pointer name : String) (v : Json) : Read UserFunction := do
  let here := pointer ++ "/members/" ++ name
  let es ← objectAt here "must be an object" v
  let parameters ← match field? es "parameters" with
    | some (.arr ps) => readFunctionParameters here 0 ps
    | _ => pure []
  match field? es "output" with
  | some (.obj output) =>
    let outputType ← readType (field? output "type") (here ++ "/output")
    return { ns, name, parameters, outputType, output := (field? output "value").getD .null }
  | _ => malformed (here ++ "/output") "missing 'output'"

/-- The functions of the namespaces; `i` counts those before. -/
def readFunctions : (i : Nat) → List Json → Read (List UserFunction)
  | _, [] => .ok []
  | i, v :: vs => do
    let pointer := "/functions/" ++ String.ofList (Integer.natText i)
    let es ← objectAt pointer "must be an object" v
    match stringField? es "namespace" with
    | none => malformed pointer "missing 'namespace'"
    | some ns =>
      match field? es "members" with
      | some (.obj members) =>
        let fs ← members.mapM fun (name, m) => readFunction ns pointer name m
        return fs ++ (← readFunctions (i + 1) vs)
      | _ => malformed pointer "missing 'members'"

def readCopy (pointer : String) (v : Json) : Read CopyLoop := do
  let es ← objectAt pointer "copy must be an object" v
  match stringField? es "name" with
  | none => malformed pointer "copy is missing 'name'"
  | some name =>
    match field? es "count" with
    | none => malformed pointer "copy is missing 'count'"
    | some count => return ⟨name, count⟩

def declarationKeys : List String := ["copy", "condition", "existing", "dependsOn", "resources"]

def isDeclarationKey (key : String) : Bool := declarationKeys.any fun d => Name.same d key

def readResource (pointer : String) (ordinal : Nat) (parent : Option Nat) (v : Json) :
    Read ResourceDeclaration := do
  let es ← objectAt pointer "resource must be an object" v
  if (stringField? es "type").isNone then malformed pointer "resource is missing 'type'"
  let copy ← match field? es "copy" with
    | none => pure none
    | some c => (readCopy (pointer ++ "/copy") c).map some
  let dependsOn ← match field? es "dependsOn" with
    | none => pure []
    | some .null => pure []
    | some (.arr items) => pure items
    | some _ => malformed (pointer ++ "/dependsOn") "must be an array"
  return {
    symbolicName := none
    ordinal
    pointer
    body := es.filter fun e => !isDeclarationKey e.1
    copy
    condition := field? es "condition"
    existing := ((field? es "existing").bind Json.bool?).getD false
    dependsOn
    parent }

def unescapeLiteral (cs : List Char) : List Char :=
  match cs with
  | '[' :: '[' :: rest => '[' :: rest
  | cs => cs

/-- A string of a template as the operand of a call: the expression in its brackets, or a quoted
literal. -/
def operand (s : String) : List Char :=
  if Expr.isExpression s then
    Blank.trimRight (Blank.trimLeft ((s.toList.drop 1).dropLast))
  else '\'' :: Text.replace ['\''] ['\'', '\''] (unescapeLiteral s.toList) ++ ['\'']

/-- Two strings of a template with a slash between what they stand for. -/
def joinSegments (left right : String) : String :=
  if !Expr.isExpression left && !Expr.isExpression right then
    left ++ "/" ++ String.ofList (unescapeLiteral right.toList)
  else
    "[concat(" ++ String.ofList (operand left) ++ ", '/', " ++ String.ofList (operand right) ++ ")]"

/-- A nested declaration with the type and the name of the one it stands in before its own. A type
with a slash is whole. -/
def qualify (child parent : ResourceDeclaration) : ResourceDeclaration :=
  match child.rawType?, parent.rawType? with
  | some childType, some parentType =>
    if childType.toList.contains '/' then child
    else
      let body := child.body.insert "type" (.str (joinSegments parentType childType))
      match Entries.get? body "name" |>.bind Json.str?, parent.rawName? with
      | some childName, some parentName =>
        { child with body := body.insert "name" (.str (joinSegments parentName childName)) }
      | _, _ => { child with body }
  | _, _ => child

def isNested (es : Entries Json) (key : String) : Bool := es.spelling? "resources" == some key

mutual

/-- A declaration and, after it, those nested in it. `ordinal` counts the declarations before. -/
def flatten (pointer : String) (ordinal : Nat) (parent : Option ResourceDeclaration) :
    Json → Read (List ResourceDeclaration)
  | .obj es => do
    let own ← readResource pointer ordinal (parent.map (·.ordinal)) (.obj es)
    let own := match parent with
      | some p => qualify own p
      | none => own
    let nested ← flattenNested pointer (ordinal + 1) own es es
    return own :: nested
  | v => do return [← readResource pointer ordinal (parent.map (·.ordinal)) v]

def flattenNested (pointer : String) (ordinal : Nat) (own : ResourceDeclaration)
    (all : Entries Json) : List (String × Json) → Read (List ResourceDeclaration)
  | [] => .ok []
  | (k, v) :: rest =>
    if isNested all k then
      match v with
      | .arr children => flattenAll (pointer ++ "/resources/") ordinal (some own) 0 children
      | _ => .ok []
    else flattenNested pointer ordinal own all rest

/-- Declarations in turn; `i` counts the siblings before. -/
def flattenAll (base : String) (ordinal : Nat) (parent : Option ResourceDeclaration) (i : Nat) :
    List Json → Read (List ResourceDeclaration)
  | [] => .ok []
  | v :: vs => do
    let block ← flatten (base ++ String.ofList (Integer.natText i)) ordinal parent v
    return block ++ (← flattenAll base (ordinal + block.length) parent (i + 1) vs)

end

/-- Keyed declarations in turn; `ordinal` counts those before. -/
def readKeyed : (ordinal : Nat) → List (String × Json) → Read (List ResourceDeclaration)
  | _, [] => .ok []
  | ordinal, (name, v) :: rest => do
    let d ← readResource ("/resources/" ++ name) ordinal none v
    return { d with symbolicName := some name } :: (← readKeyed (ordinal + 1) rest)

def readOutput (name : String) (v : Json) : Read OutputDefinition := do
  let pointer := "/outputs/" ++ name
  let es ← objectAt pointer "must be an object" v
  let type ← match field? es "type" with
    | none => pure none
    | some t => (readType (some t) pointer).map some
  let copy ← match field? es "copy" with
    | none => pure none
    | some (.obj c) =>
      match field? c "count" with
      | none => malformed (pointer ++ "/copy") "missing 'count'"
      | some count =>
        match field? c "input" with
        | none => malformed (pointer ++ "/copy") "missing 'input'"
        | some input => pure (some ⟨count, input⟩)
    | some _ => malformed (pointer ++ "/copy") "must be an object"
  return { name, type, value := field? es "value", condition := field? es "condition", copy }

def objectSection (es : Entries Json) (name : String) : Read (Entries Json) :=
  match field? es name with
  | none => .ok []
  | some .null => .ok []
  | some (.obj members) => .ok members
  | some _ => malformed ("/" ++ name) "must be an object"

def ofJson (v : Json) : Read Template := do
  let es ← objectAt "" "template must be a JSON object" v
  let schema := stringField? es "$schema"
  let parameters ← (← objectSection es "parameters").mapM fun (name, p) => readParameter name p
  let vars ← objectSection es "variables"
  let functions ← match field? es "functions" with
    | none => pure []
    | some .null => pure []
    | some (.arr items) => readFunctions 0 items
    | some _ => malformed "/functions" "must be an array"
  let (resources, symbolic) ← match field? es "resources" with
    | none => pure ([], false)
    | some .null => pure ([], false)
    | some (.arr items) => do pure (← flattenAll "/resources/" 0 none 0 items, false)
    | some (.obj members) => do pure (← readKeyed 0 members, true)
    | some _ => malformed "/resources" "must be an array or an object"
  let outputs ← (← objectSection es "outputs").mapM fun (name, o) => readOutput name o
  return {
    schema
    scopeLevel := (schema.map ScopeLevel.ofSchema).getD .resourceGroup
    languageVersion := stringField? es "languageVersion"
    contentVersion := stringField? es "contentVersion"
    parameters
    vars
    functions
    resources
    outputs
    symbolic
    raw := v }

def parse (text : String) : Read Template :=
  match Json.parse? text with
  | some v => ofJson v
  | none => malformed "" "invalid JSON: not a JSON text"

end ResourceTemplate.Template
