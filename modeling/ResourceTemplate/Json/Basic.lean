import ResourceTemplate.Json.Entries
import ResourceTemplate.Number.Basic

namespace ResourceTemplate

inductive Json where
  | null
  | bool (value : Bool)
  | num (value : Number)
  | str (value : String)
  | arr (items : List Json)
  | obj (entries : List (String × Json))

namespace Json

instance : Inhabited Json := ⟨.null⟩

def int (n : Int) : Json := .num (.int n)

def strings (xs : List String) : Json := .arr (xs.map .str)

def strOrNull : Option String → Json
  | some s => .str s
  | none => .null

def typeName : Json → String
  | .null => "null"
  | .bool _ => "bool"
  | .num (.float _) => "float"
  | .num (.int _) => "int"
  | .str _ => "string"
  | .arr _ => "array"
  | .obj _ => "object"

def str? : Json → Option String
  | .str s => some s
  | _ => none

def bool? : Json → Option Bool
  | .bool b => some b
  | _ => none

def arr? : Json → Option (List Json)
  | .arr xs => some xs
  | _ => none

def obj? : Json → Option (Entries Json)
  | .obj es => some es
  | _ => none

def int64? : Json → Option Int
  | .num n => n.toInt64?
  | _ => none

def isNull : Json → Bool
  | .null => true
  | _ => false

def isObject : Json → Bool
  | .obj _ => true
  | _ => false

def member? (j : Json) (key : String) : Option Json :=
  match j with
  | .obj es => Entries.get? es key
  | _ => none

def isEmpty : Json → Bool
  | .null => true
  | .str s => s.isEmpty
  | .arr xs => xs.isEmpty
  | .obj es => es.isEmpty
  | _ => false

mutual

/-- Equality that compares numbers by value and names up to case: each entry of the first object
is compared with the value its name has in the second. -/
def alike : Json → Json → Bool
  | .null, .null => true
  | .bool a, .bool b => a == b
  | .num a, .num b => a.alike b
  | .str a, .str b => a == b
  | .arr xs, .arr ys => alikeItems xs ys
  | .obj xs, .obj ys => xs.length == ys.length && alikeEntries xs ys
  | _, _ => false

def alikeItems : List Json → List Json → Bool
  | [], [] => true
  | x :: xs, y :: ys => alike x y && alikeItems xs ys
  | _, _ => false

def alikeEntries : List (String × Json) → List (String × Json) → Bool
  | [], _ => true
  | (k, v) :: rest, ys =>
    (match Entries.getNamed? ys k with
      | some w => alike v w
      | none => false) && alikeEntries rest ys

end

mutual

def eqUnordered : Json → Json → Bool
  | .null, .null => true
  | .bool a, .bool b => a == b
  | .num a, .num b => a.same b
  | .str a, .str b => a == b
  | .arr xs, .arr ys => eqUnorderedItems xs ys
  | .obj xs, .obj ys => xs.length == ys.length && eqUnorderedEntries xs ys
  | _, _ => false

def eqUnorderedItems : List Json → List Json → Bool
  | [], [] => true
  | x :: xs, y :: ys => eqUnordered x y && eqUnorderedItems xs ys
  | _, _ => false

def eqUnorderedEntries : List (String × Json) → List (String × Json) → Bool
  | [], _ => true
  | (k, v) :: rest, ys =>
    (match Entries.get? ys k with
      | some w => eqUnordered v w
      | none => false) && eqUnorderedEntries rest ys

end

def elemAlike (x : Json) (xs : List Json) : Bool := xs.any fun y => y.alike x

end Json
end ResourceTemplate
