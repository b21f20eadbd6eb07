import ResourceTemplate.Catalog.Logic
import ResourceTemplate.Number.Basic
import ResourceTemplate.Text.Character

namespace ResourceTemplate.Catalog.Arithmetic

def binary (op : Int → Int → Int) (a : Args) : Except ExprError Json := do
  a.exactly 2
  let x ← a.int 0
  let y ← a.int 1
  match Number.inRange? (op x y) with
  | some n => return .int n
  | none =>
    throw (.numericOverflow (a.function ++ "(" ++ String.ofList (Integer.text x) ++ ", " ++
      String.ofList (Integer.text y) ++ ")"))

def add : Pure := binary (· + ·)

def sub : Pure := binary (· - ·)

def mul : Pure := binary (· * ·)

/-- An operation whose second operand must not be zero. The quotient leaves the range exactly when
the operation is refused, for the remainder as well. -/
def dividing (name : String) (op : Int → Int → Int) (a : Args) : Except ExprError Json := do
  a.exactly 2
  if (← a.int 1) == 0 then throw (.invalidArgument name "division by zero")
  let x ← a.int 0
  let y ← a.int 1
  match Number.inRange? (Int.tdiv x y) with
  | some _ => return .int (op x y)
  | none =>
    throw (.numericOverflow (a.function ++ "(" ++ String.ofList (Integer.text x) ++ ", " ++
      String.ofList (Integer.text y) ++ ")"))

def div : Pure := dividing "div" Int.tdiv

def mod : Pure := dividing "mod" Int.tmod

/-- The integer part of a double, if it is in the range of 64 bits. The bound itself counts as the
greatest integer. -/
def ofBinary64? (x : Binary64) : Option Int :=
  if Nat.pow 2 (63 + 1074) < x.magnitude then none
  else if (Integer.maxInt64 : Int) < x.truncate then some Integer.maxInt64
  else some x.truncate

def int (a : Args) : Except ExprError Json := do
  a.exactly 1
  match ← a.value 0 with
  | .num n =>
    match n.toInt64? with
    | some x => return .int x
    | none =>
      match ofBinary64? n.toBinary64 with
      | some x => return .int x
      | none => throw (.numericOverflow "int")
  | .str s =>
    match Integer.int64 (Blank.trim s).toList with
    | .ok x => return .int x
    | .error .outOfRange => throw (.numericOverflow ("int('" ++ s ++ "')"))
    | .error .malformed => throw (.invalidArgument "int" ("'" ++ s ++ "' is not an integer"))
  | v => throw (.mismatch "argument 1 of 'int'" "int or string" v)

def float (a : Args) : Except ExprError Json := do
  a.exactly 1
  let read ← match ← a.value 0 with
    | .num n => pure (some n.toBinary64)
    | .str s => pure (Binary64.ofText? (Blank.trim s).toList)
    | v => throw (.mismatch "argument 1 of 'float'" "int or string" v)
  match read with
  | some x => return .num (.float x)
  | none => throw (.invalidArgument "float" "not a finite number")

def numbers (a : Args) : Except ExprError (List Int) := do
  a.expect 1 none
  let items := match a.values with
    | [.arr xs] => xs
    | vs => vs
  items.mapM fun v =>
    match v with
    | .num n =>
      match n.toInt64? with
      | some x => .ok x
      | none => .error (.numericOverflow a.function)
    | v => .error (.mismatch ("argument of '" ++ a.function ++ "'") "int" v)

def extreme (name : String) (pick : Int → Int → Int) (a : Args) : Except ExprError Json := do
  match ← numbers a with
  | x :: xs => return .int (xs.foldl pick x)
  | [] => throw (.invalidArgument name "no values")

def max : Pure := extreme "max" Max.max

def min : Pure := extreme "min" Min.min

def maxRange : Int := 10000

def range (a : Args) : Except ExprError Json := do
  a.exactly 2
  let start ← a.int 0
  let count ← a.int 1
  if count < 0 || maxRange < count then
    throw (.invalidArgument "range"
      ("count must be between 0 and " ++ String.ofList (Integer.text maxRange)))
  match Number.inRange? (start + count) with
  | none => throw (.numericOverflow "range")
  | some _ => return .arr ((List.range count.toNat).map fun (i : Nat) => .int (start + i))

def functions : List (String × Pure) :=
  [("add", add), ("sub", sub), ("mul", mul), ("div", div), ("mod", mod), ("int", int),
   ("float", float), ("max", max), ("min", min), ("range", range)]

end ResourceTemplate.Catalog.Arithmetic
