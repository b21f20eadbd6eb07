import ResourceTemplate.Expr.Args

namespace ResourceTemplate.Catalog

abbrev Pure := Args → Except ExprError Json

namespace Logic

def bool (a : Args) : Except ExprError Json := do
  a.exactly 1
  let v ← a.value 0
  let refuse := ExprError.mismatch "argument 1 of 'bool'" "bool, 'true'/'false' or int" v
  match v with
  | .bool b => return .bool b
  | .str s =>
    if Name.same s "true" then return .bool true
    else if Name.same s "false" then return .bool false
    else throw refuse
  | .num n => return .bool (n.toInt64?.any (· != 0))
  | _ => throw refuse

def not (a : Args) : Except ExprError Json := do
  a.exactly 1
  return .bool (!(← a.bool 0))

def constant (v : Json) (a : Args) : Except ExprError Json := do
  a.exactly 0
  return v

def equals (a : Args) : Except ExprError Json := do
  a.exactly 2
  return .bool ((← a.value 0).alike (← a.value 1))

def compareChars : List Char → List Char → Ordering
  | [], [] => .eq
  | [], _ :: _ => .lt
  | _ :: _, [] => .gt
  | a :: as, b :: bs =>
    if a.toNat < b.toNat then .lt
    else if b.toNat < a.toNat then .gt
    else compareChars as bs

def compareNumbers (x y : Number) : Ordering :=
  match x.toInt64?, y.toInt64? with
  | some m, some n => compare m n
  | _, _ => compare x.toBinary64.scaled y.toBinary64.scaled

def order (a : Args) : Except ExprError Ordering := do
  a.exactly 2
  match ← a.value 0, ← a.value 1 with
  | .num x, .num y => return compareNumbers x y
  | .str x, .str y => return compareChars x.toList y.toList
  | x, y =>
    throw (.typeMismatch ("arguments of '" ++ a.function ++ "'") "two ints or two strings"
      (x.typeName ++ " and " ++ y.typeName))

def ordered (holds : Ordering → Bool) (a : Args) : Except ExprError Json := do
  return .bool (holds (← order a))

def functions : List (String × Pure) :=
  [("bool", bool), ("not", not), ("true", constant (.bool true)), ("false", constant (.bool false)),
   ("null", constant .null), ("equals", equals),
   ("greater", ordered (· == .gt)), ("greaterorequals", ordered (· != .lt)),
   ("less", ordered (· == .lt)), ("lessorequals", ordered (· != .gt))]

end Logic
end ResourceTemplate.Catalog
