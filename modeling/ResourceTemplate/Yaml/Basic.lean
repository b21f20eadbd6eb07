import ResourceTemplate.Json.Basic
import ResourceTemplate.Number.Basic

namespace ResourceTemplate

inductive Yaml where
  /-- A scalar without quotes; nothing at all is the empty one. -/
  | plain (text : String)
  | quoted (text : String)
  | seq (items : List Yaml)
  | map (entries : List (Yaml × Yaml))
deriving Inhabited

namespace Yaml

def nothing : Yaml := .plain ""

def text? : Yaml → Option String
  | .plain s => some s
  | .quoted s => some s
  | .seq _ => none
  | .map _ => none

def isNullText (s : String) : Bool := ["", "null", "Null", "NULL", "~"].contains s

def boolOf? (s : String) : Option Bool :=
  if ["true", "True", "TRUE"].contains s then some true
  else if ["false", "False", "FALSE"].contains s then some false
  else none

def digit? (base : Nat) (c : Char) : Option Nat :=
  let v := if '0' ≤ c && c ≤ '9' then some (c.toNat - 48)
    else if 'a' ≤ c && c ≤ 'f' then some (c.toNat - 87)
    else if 'A' ≤ c && c ≤ 'F' then some (c.toNat - 55)
    else none
  v.filter (· < base)

def natOf? (base : Nat) (cs : List Char) : Option Nat :=
  if cs.isEmpty then none
  else cs.foldlM (fun acc c => (digit? base c).map (acc * base + ·)) 0

def marked? : List Char → Option (Nat × List Char)
  | '0' :: 'x' :: rest => some (16, rest)
  | '0' :: 'o' :: rest => some (8, rest)
  | '0' :: 'b' :: rest => some (2, rest)
  | _ => none

/-- Whether digits begin with a zero that is not the only one; such a text is no number. -/
def isPadded : List Char → Bool
  | '0' :: c :: rest => (c :: rest).all Integer.isDigit
  | _ => false

/-- A natural number without a sign: decimal, or of a marked base. -/
def magnitude? (cs : List Char) : Option Nat :=
  match marked? cs with
  | some (base, digits) => natOf? base digits
  | none => if isPadded cs then none else natOf? 10 cs

def natural? (s : String) : Option Nat :=
  match s.toList with
  | '+' :: cs => magnitude? cs
  | cs => magnitude? cs

def integer? (s : String) : Option Int :=
  match s.toList with
  | '-' :: cs => (magnitude? cs).map fun n => -(n : Int)
  | _ => (natural? s).map Int.ofNat

def isInfinite (s : String) : Bool :=
  [".inf", ".Inf", ".INF", "+.inf", "+.Inf", "+.INF", "-.inf", "-.Inf", "-.INF", ".nan", ".NaN",
    ".NAN"].contains s

def double? (s : String) : Option Binary64 :=
  let digits := match s.toList with
    | '+' :: '+' :: _ => none
    | '+' :: '-' :: _ => none
    | '-' :: cs => if isPadded cs then none else some s.toList
    | '+' :: cs => if isPadded cs then none else some cs
    | cs => if isPadded cs then none else some cs
  digits.bind Binary64.ofText?

def least128 : Int := -170141183460469231731687303715884105728

def greatest128 : Int := 340282366920938463463374607431768211455

/-- The value of a plain scalar that is no null: a truth value, a number or a text. Integers beyond
64 bits are refused up to 128 bits and doubles beyond. -/
def scalarJson? (s : String) : Option Json :=
  match boolOf? s, integer? s with
  | some b, _ => some (.bool b)
  | none, some n =>
    if -(Integer.maxInt64 : Int) - 1 ≤ n ∧ n ≤ Integer.maxNat64 then some (.int n)
    else if least128 ≤ n ∧ n ≤ greatest128 then none
    else some ((double? s).elim (.str s) fun x => .num (.float x))
  | none, none =>
    if isInfinite s then some .null
    else some ((double? s).elim (.str s) fun x => .num (.float x))

mutual

def toJson? : Yaml → Option Json
  | .plain s => if isNullText s then some .null else scalarJson? s
  | .quoted s => some (.str s)
  | .seq items => (itemsJson? items).map .arr
  | .map entries => (entriesJson? [] entries).map .obj

def itemsJson? : List Yaml → Option (List Json)
  | [] => some []
  | v :: vs => do
    let x ← toJson? v
    return x :: (← itemsJson? vs)

/-- The entries after those of `acc`; a later entry of the same key replaces the value. -/
def entriesJson? (acc : Entries Json) : List (Yaml × Yaml) → Option (Entries Json)
  | [] => some acc
  | (k, v) :: rest => do
    let key ← k.text?
    let x ← toJson? v
    entriesJson? (acc.insert key x) rest

end

end Yaml
end ResourceTemplate
