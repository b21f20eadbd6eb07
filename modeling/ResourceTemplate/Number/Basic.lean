import ResourceTemplate.Number.Binary64
import ResourceTemplate.Text.Integer

namespace ResourceTemplate

inductive Number where
  | int (value : Int)
  | float (value : Binary64)
deriving DecidableEq, Inhabited

namespace Number

def inRange? (n : Int) : Option Int :=
  if -(Integer.maxInt64 : Int) - 1 ≤ n ∧ n ≤ Integer.maxInt64 then some n else none

/-- The number as an integer of 64 bits; a double never is one. -/
def toInt64? : Number → Option Int
  | .int n => inRange? n
  | .float _ => none

def toBinary64 : Number → Binary64
  | .int n => (Binary64.ofInt n).getD (Binary64.zero false)
  | .float x => x

/-- Equal as integers of 64 bits if both are, else as doubles. -/
def alike (a b : Number) : Bool :=
  match a.toInt64?, b.toInt64? with
  | some x, some y => x == y
  | _, _ => a.toBinary64.same b.toBinary64

/-- Equal and of one kind; the two zeros of a double are equal. -/
def same : Number → Number → Bool
  | .int a, .int b => a == b
  | .float a, .float b => a.same b
  | _, _ => false

end Number

end ResourceTemplate

namespace ResourceTemplate.Binary64

def digitsValue (cs : List Char) : Nat :=
  cs.foldl (fun acc c => acc * 10 + Integer.digitValue c) 0

def takeSign : List Char → Bool × List Char
  | '-' :: rest => (true, rest)
  | '+' :: rest => (false, rest)
  | rest => (false, rest)

def exponent? : List Char → Option Int
  | [] => some 0
  | e :: rest =>
    let (minus, ds) := takeSign rest
    if (e == 'e' || e == 'E') && !ds.isEmpty && ds.all Integer.isDigit then
      let n : Int := digitsValue ds
      some (if minus then -n else n)
    else none

/-- The double nearest to a decimal text; `none` if the text is none or its value out of range. -/
def ofText? (cs : List Char) : Option Binary64 := do
  let (negative, cs) := takeSign cs
  let whole := cs.takeWhile Integer.isDigit
  let rest := cs.dropWhile Integer.isDigit
  let (fraction, rest) := match rest with
    | '.' :: r => (r.takeWhile Integer.isDigit, r.dropWhile Integer.isDigit)
    | r => ([], r)
  if whole.isEmpty && fraction.isEmpty then none
  let exponent ← exponent? rest
  ofDecimal negative (digitsValue (whole ++ fraction)) (exponent - fraction.length)

end ResourceTemplate.Binary64
