import ResourceTemplate.Json.Entries
import ResourceTemplate.Text.Character
import ResourceTemplate.Text.Integer
import ResourceTemplate.Text.Search

/-!
Symbols of a deployment: names for the resources that declarations produce. An object symbol is bound
to one id, once; an array symbol collects the ids of a copy loop in turn. Names are the same up to
case, and the kind is fixed by the first declaration.
-/

namespace ResourceTemplate

inductive SymbolKind where
  | array
  | object
deriving DecidableEq, Repr

def SymbolKind.text : SymbolKind → String
  | .array => "array"
  | .object => "object"

inductive DeploymentSymbol where
  | array (name : String) (ids : List String)
  | object (name : String) (id : Option String)
deriving DecidableEq, Repr

/-- Why a symbol cannot be declared, bound or read. -/
inductive SymbolFault where
  | kindConflict (name : String) (existing requested : SymbolKind)
  | alreadyBound (name id : String)
  | unknown (name : String)
  | indexOutOfRange (name : String) (index length : Nat)
deriving DecidableEq, Repr

def SymbolFault.message : SymbolFault → String
  | .kindConflict name existing requested =>
    "Symbol '" ++ name ++ "' is declared as " ++ existing.text ++ " and cannot be used as " ++
      requested.text
  | .alreadyBound name id => "Symbol '" ++ name ++ "' is already bound to '" ++ id ++ "'"
  | .unknown name => "Symbol '" ++ name ++ "' is not declared"
  | .indexOutOfRange name index length =>
    "Index " ++ String.ofList (Integer.natText index) ++ " of '" ++ name ++
      "' is out of range (" ++ String.ofList (Integer.natText length) ++ " bound)"

namespace DeploymentSymbol

def name : DeploymentSymbol → String
  | .array name _ => name
  | .object name _ => name

def kind : DeploymentSymbol → SymbolKind
  | .array .. => .array
  | .object .. => .object

def ids : DeploymentSymbol → List String
  | .array _ ids => ids
  | .object _ id => id.toList

def isBound (s : DeploymentSymbol) : Bool := !s.ids.isEmpty

/-- The id at an index. An object has no use for one; an array that is bound has the index or
refuses it. -/
def getId : DeploymentSymbol → Option Nat → Except SymbolFault (Option String)
  | .object _ id, _ => .ok id
  | .array _ _, none => .ok none
  | .array _ [], some _ => .ok none
  | .array name ids, some i =>
    match ids[i]? with
    | some id => .ok (some id)
    | none => .error (.indexOutOfRange name i ids.length)

def bind : DeploymentSymbol → String → Except SymbolFault DeploymentSymbol
  | .array name ids, id => .ok (.array name (ids ++ [id]))
  | .object name none, id => .ok (.object name (some id))
  | .object name (some bound), _ => .error (.alreadyBound name bound)

end DeploymentSymbol

def splitIndexed? (reference : String) : Option (String × Nat) :=
  match Text.splitOnce? ['['] reference.toList with
  | none => none
  | some (name, rest) =>
    if rest.getLast? == some ']' then
      let index := Blank.trimRight (Blank.trimLeft rest.dropLast)
      match Integer.nat64 index with
      | .ok i => some (String.ofList name, i)
      | .error _ => none
    else none

structure SymbolTable where
  symbols : Entries DeploymentSymbol := []

namespace SymbolTable

def find? (t : SymbolTable) (name : String) : Option DeploymentSymbol :=
  t.symbols.get? (Name.fold name)

def contains (t : SymbolTable) (name : String) : Bool := (t.find? name).isSome

def size (t : SymbolTable) : Nat := t.symbols.length

def put (t : SymbolTable) (name : String) (s : DeploymentSymbol) : SymbolTable :=
  ⟨t.symbols.insert (Name.fold name) s⟩

/-- Bind an id: an array takes another one, an object its first. -/
def configure (t : SymbolTable) (name id : String) : Except SymbolFault SymbolTable :=
  match t.find? name with
  | none => .error (.unknown name)
  | some s => (s.bind id).map (t.put name)

/-- Declare an array; declaring it again changes nothing. -/
def declareArray (t : SymbolTable) (name : String) : Except SymbolFault SymbolTable :=
  match t.find? name with
  | none => .ok (t.put name (.array name []))
  | some s => if s.kind = .array then .ok t else .error (.kindConflict s.name s.kind .array)

def declareObject (t : SymbolTable) (name : String) (initial : Option String) :
    Except SymbolFault SymbolTable :=
  match t.find? name with
  | none => .ok (t.put name (.object name initial))
  | some s =>
    if s.kind = .object then
      match initial with
      | none => .ok t
      | some id => t.configure name id
    else .error (.kindConflict s.name s.kind .object)

/-- The id of a symbol at an index; an undeclared name has none. -/
def getId (t : SymbolTable) (name : String) (index : Option Nat) :
    Except SymbolFault (Option String) :=
  match t.find? name with
  | some s => s.getId index
  | none => .ok none

def getIds (t : SymbolTable) (name : String) : List String :=
  match t.find? name with
  | some s => s.ids
  | none => []

/-- The id that `name` or `name[i]` refers to. -/
def lookup (t : SymbolTable) (reference : String) : Except SymbolFault (Option String) :=
  match splitIndexed? reference with
  | some (name, index) => t.getId name (some index)
  | none => t.getId reference none

end SymbolTable
end ResourceTemplate
