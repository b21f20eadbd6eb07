import ResourceTemplate.Catalog.Logic
import ResourceTemplate.Json.Reader
import ResourceTemplate.Text.Case

namespace ResourceTemplate.Catalog.Collections

def array (a : Args) : Except ExprError Json := do
  a.exactly 1
  match ← a.value 0 with
  | .arr xs => return .arr xs
  | v => return .arr [v]

def coalesce (a : Args) : Except ExprError Json := do
  a.expect 1 none
  return (a.values.find? fun v => !v.isNull).getD .null

/-- The items of arrays in turn; nulls are left out. -/
def concatArrays : (i : Nat) → List Json → Except ExprError (List Json)
  | _, [] => .ok []
  | i, .arr xs :: rest => (concatArrays (i + 1) rest).map (xs ++ ·)
  | i, .null :: rest => concatArrays (i + 1) rest
  | i, v :: _ => .error (.mismatch (Args.context "concat" i) "array" v)

def concatTexts : (i : Nat) → List Json → Except ExprError (List Char)
  | _, [] => .ok []
  | i, .arr xs :: _ => .error (.mismatch (Args.context "concat" i) "string" (.arr xs))
  | i, .obj es :: _ => .error (.mismatch (Args.context "concat" i) "string" (.obj es))
  | i, v :: rest => (concatTexts (i + 1) rest).map (v.display.toList ++ ·)

/-- Joins arrays if the first argument that is not null is one, else texts. -/
def concat (a : Args) : Except ExprError Json := do
  a.expect 1 none
  match a.values.find? fun v => !v.isNull with
  | some (.arr _) => return .arr (← concatArrays 0 a.values)
  | _ => return .str (String.ofList (← concatTexts 0 a.values))

def contains (a : Args) : Except ExprError Json := do
  a.exactly 2
  let item ← a.value 1
  match ← a.value 0 with
  | .str s => return .bool (Text.contains item.display.toList s.toList)
  | .arr xs => return .bool (item.elemAlike xs)
  | .obj es => return .bool (Entries.spelling? es item.display).isSome
  | v => throw (.mismatch "argument 1 of 'contains'" "string, array or object" v)

def createArray (a : Args) : Except ExprError Json := .ok (.arr a.values)

/-- An object from keys and values in turn; `i` counts the arguments before. -/
def pairs (a : Args) (acc : Entries Json) : (i : Nat) → List Json → Except ExprError (Entries Json)
  | i, .str k :: v :: rest => pairs a (acc.insert k v) (i + 2) rest
  | i, v :: _ :: _ => .error (a.mismatch i "string" v)
  | _, _ => .ok acc

def createObject (a : Args) : Except ExprError Json := do
  if a.values.length % 2 != 0 then
    throw (.invalidArgument "createObject" "expects key and value pairs")
  return .obj (← pairs a [] 0 a.values)

def empty (a : Args) : Except ExprError Json := do
  a.exactly 1
  return .bool (← a.value 0).isEmpty

def first (a : Args) : Except ExprError Json := do
  a.exactly 1
  match ← a.value 0 with
  | .arr xs => return xs.head?.getD .null
  | .str s => return .str (String.ofList (s.toList.take 1))
  | v => throw (.mismatch "argument 1 of 'first'" "array or string" v)

def last (a : Args) : Except ExprError Json := do
  a.exactly 1
  match ← a.value 0 with
  | .arr xs => return xs.getLast?.getD .null
  | .str s => return .str (String.ofList s.toList.getLast?.toList)
  | v => throw (.mismatch "argument 1 of 'last'" "array or string" v)

def flatten (a : Args) : Except ExprError Json := do
  a.exactly 1
  let items ← (← a.array 0).mapM fun item =>
    match item with
    | .arr xs => .ok xs
    | v => .error (ExprError.mismatch "element of 'flatten'" "array" v)
  return .arr items.flatten

def lastIndex? (p : Json → Bool) : List Json → Option Nat
  | [] => none
  | x :: xs =>
    match lastIndex? p xs with
    | some i => some (i + 1)
    | none => if p x then some 0 else none

/-- The place of a text or an item, or -1. Texts are compared without regard to case. -/
def position (fromEnd : Bool) (a : Args) : Except ExprError Json := do
  a.exactly 2
  let found ← match ← a.value 0 with
    | .str s => do
      let text := (Case.lower s).toList
      let pattern := (Case.lower (← a.string 1)).toList
      pure (if fromEnd then Text.lastIndexOf? pattern text else Text.indexOf? pattern text)
    | .arr xs => do
      let item ← a.value 1
      let p (v : Json) : Bool := v.alike item
      pure (if fromEnd then lastIndex? p xs else xs.findIdx? p)
    | v => throw (a.mismatch 0 "array or string" v)
  match found with
  | some i => return .int i
  | none => return .int (-1)

/-- The arguments from place `i` on as arrays, while `wanted` holds for none of them: the check
stops at the first that lacks the item. -/
def inAllArrays (a : Args) (item : Json) : (i : Nat) → List Json → Except ExprError Bool
  | _, [] => .ok true
  | i, .arr xs :: rest => if item.elemAlike xs then inAllArrays a item (i + 1) rest else .ok false
  | i, v :: _ => .error (a.mismatch i "array" v)

def inAllObjects (a : Args) (key : String) (value : Json) :
    (i : Nat) → List Json → Except ExprError Bool
  | _, [] => .ok true
  | i, .obj es :: rest =>
    match Entries.getNamed? es key with
    | some v => if v.alike value then inAllObjects a key value (i + 1) rest else .ok false
    | none => .ok false
  | i, v :: _ => .error (a.mismatch i "object" v)

def intersectArrays (a : Args) (rest : List Json) :
    (acc : List Json) → List Json → Except ExprError (List Json)
  | acc, [] => .ok acc
  | acc, x :: xs => do
    let everywhere ← inAllArrays a x 1 rest
    intersectArrays a rest (if everywhere && !x.elemAlike acc then acc ++ [x] else acc) xs

def intersectObjects (a : Args) (rest : List Json) :
    (acc : Entries Json) → List (String × Json) → Except ExprError (Entries Json)
  | acc, [] => .ok acc
  | acc, (k, v) :: es => do
    let everywhere ← inAllObjects a k v 1 rest
    intersectObjects a rest (if everywhere then acc.insert k v else acc) es

def intersection (a : Args) : Except ExprError Json := do
  a.expect 2 none
  match ← a.value 0 with
  | .arr xs => return .arr (← intersectArrays a a.values.tail [] xs)
  | .obj es => return .obj (← intersectObjects a a.values.tail [] es)
  | v => throw (.mismatch "argument 1 of 'intersection'" "array or object" v)

def addItems (acc xs : List Json) : List Json :=
  xs.foldl (fun acc x => if x.elemAlike acc then acc else acc ++ [x]) acc

def update (es : Entries Json) (key : String) (f : Json → Json) : Entries Json :=
  match es with
  | [] => []
  | (k, v) :: rest => if k == key then (k, f v) :: rest else (k, v) :: update rest key f

mutual

/-- Write an entry into an object: two objects of one name are merged, else the later value
replaces the earlier in its place. -/
def mergeEntry (target : Entries Json) (key : String) : Json → Entries Json
  | .obj incoming =>
    match Entries.spelling? target key with
    | none => target.insert key (.obj incoming)
    | some spelling =>
      match Entries.get? target spelling with
      | some (.obj current) =>
        update target spelling fun _ => .obj (mergeEntries current incoming)
      | _ => update target spelling fun _ => .obj incoming
  | value =>
    match Entries.spelling? target key with
    | none => target.insert key value
    | some spelling => update target spelling fun _ => value

def mergeEntries (target : Entries Json) : List (String × Json) → Entries Json
  | [] => target
  | (k, v) :: rest => mergeEntries (mergeEntry target k v) rest

end

def uniteArrays (a : Args) : (acc : List Json) → (i : Nat) → List Json → Except ExprError (List Json)
  | acc, _, [] => .ok acc
  | acc, i, .arr xs :: rest => uniteArrays a (addItems acc xs) (i + 1) rest
  | _, i, v :: _ => .error (a.mismatch i "array" v)

def uniteObjects (a : Args) :
    (acc : Entries Json) → (i : Nat) → List Json → Except ExprError (Entries Json)
  | acc, _, [] => .ok acc
  | acc, i, .obj es :: rest => uniteObjects a (mergeEntries acc es) (i + 1) rest
  | _, i, v :: _ => .error (a.mismatch i "object" v)

def union (a : Args) : Except ExprError Json := do
  a.expect 2 none
  match ← a.value 0 with
  | .arr _ => return .arr (← uniteArrays a [] 0 a.values)
  | .obj _ => return .obj (← uniteObjects a [] 0 a.values)
  | v => throw (.mismatch "argument 1 of 'union'" "array or object" v)

def insertSorted (e : String × Json) : List (String × Json) → List (String × Json)
  | [] => [e]
  | x :: xs =>
    if Logic.compareChars e.1.toList x.1.toList == .lt then e :: x :: xs
    else x :: insertSorted e xs

def sortEntries (es : List (String × Json)) : List (String × Json) :=
  es.foldl (fun acc e => insertSorted e acc) []

def items (a : Args) : Except ExprError Json := do
  a.exactly 1
  let es ← a.object 0
  return .arr ((sortEntries es).map fun (k, v) => .obj [("key", .str k), ("value", v)])

def json (a : Args) : Except ExprError Json := do
  a.exactly 1
  match Json.parse? (← a.string 0) with
  | some v => return v
  | none => throw (.invalidArgument "json" "not a JSON text")

def length (a : Args) : Except ExprError Json := do
  a.exactly 1
  match ← a.value 0 with
  | .str s => return .int s.toList.length
  | .arr xs => return .int xs.length
  | .obj es => return .int es.length
  | v => throw (.mismatch "argument 1 of 'length'" "string, array or object" v)

def objectKeys (a : Args) : Except ExprError Json := do
  a.exactly 1
  return .strings (Entries.keys (← a.object 0))

/-- A number of items or characters, where a negative one counts as zero. -/
def amount (a : Args) (i : Nat) : Except ExprError Nat := (a.int i).map Int.toNat

def skip (a : Args) : Except ExprError Json := do
  a.exactly 2
  let n ← amount a 1
  match ← a.value 0 with
  | .arr xs => return .arr (xs.drop n)
  | .str s => return .str (String.ofList (s.toList.drop n))
  | v => throw (.mismatch "argument 1 of 'skip'" "array or string" v)

def take (a : Args) : Except ExprError Json := do
  a.exactly 2
  let n ← amount a 1
  match ← a.value 0 with
  | .arr xs => return .arr (xs.take n)
  | .str s => return .str (String.ofList (s.toList.take n))
  | v => throw (.mismatch "argument 1 of 'take'" "array or string" v)

def functions : List (String × Pure) :=
  [("array", array), ("coalesce", coalesce), ("concat", concat), ("contains", contains),
   ("createarray", createArray), ("createobject", createObject), ("empty", empty), ("first", first),
   ("flatten", flatten), ("indexof", position false), ("intersection", intersection),
   ("items", items), ("json", json), ("last", last), ("lastindexof", position true),
   ("length", length), ("objectkeys", objectKeys), ("skip", skip), ("take", take), ("union", union)]

end ResourceTemplate.Catalog.Collections
