import ResourceTemplate.Expr.Error
import ResourceTemplate.Json.Printer

namespace ResourceTemplate

structure Args where
  function : String
  values : List Json

namespace Args

def count (n : Nat) : String := String.ofList (Integer.natText n)

def rangeText (least : Nat) (most : Option Nat) : String :=
  match most with
  | some m => if m == least then count least else count least ++ "-" ++ count m
  | none => "at least " ++ count least

/-- Demand between `least` and `most` arguments of `actual`. -/
def expectCount (function : String) (actual least : Nat) (most : Option Nat) :
    Except ExprError Unit :=
  if least ≤ actual && most.all (actual ≤ ·) then .ok ()
  else .error (.argumentCount function (rangeText least most) actual)

def expect (a : Args) (least : Nat) (most : Option Nat) : Except ExprError Unit :=
  expectCount a.function a.values.length least most

def exactly (a : Args) (n : Nat) : Except ExprError Unit := a.expect n (some n)

def value (a : Args) (i : Nat) : Except ExprError Json :=
  match a.values[i]? with
  | some v => .ok v
  | none => .error (.argumentCount a.function ("at least " ++ count (i + 1)) a.values.length)

def context (function : String) (i : Nat) : String :=
  "argument " ++ count (i + 1) ++ " of '" ++ function ++ "'"

def mismatch (a : Args) (i : Nat) (expected : String) (found : Json) : ExprError :=
  .mismatch (context a.function i) expected found

def string (a : Args) (i : Nat) : Except ExprError String := do
  match ← a.value i with
  | .str s => .ok s
  | v => .error (a.mismatch i "string" v)

def int (a : Args) (i : Nat) : Except ExprError Int := do
  match ← a.value i with
  | .num n =>
    match n.toInt64? with
    | some x => .ok x
    | none => .error (.numericOverflow ("argument of '" ++ a.function ++ "'"))
  | v => .error (a.mismatch i "int" v)

def bool (a : Args) (i : Nat) : Except ExprError Bool := do
  match ← a.value i with
  | .bool b => .ok b
  | v => .error (a.mismatch i "bool" v)

def array (a : Args) (i : Nat) : Except ExprError (List Json) := do
  match ← a.value i with
  | .arr xs => .ok xs
  | v => .error (a.mismatch i "array" v)

def object (a : Args) (i : Nat) : Except ExprError (Entries Json) := do
  match ← a.value i with
  | .obj es => .ok es
  | v => .error (a.mismatch i "object" v)

def strings (a : Args) : Except ExprError (List String) :=
  (List.range a.values.length).mapM a.string

end Args
end ResourceTemplate
