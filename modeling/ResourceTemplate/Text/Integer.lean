namespace ResourceTemplate.Integer

/-- The greatest integer of 64 bits with a sign; the least is one below its negative. -/
def maxInt64 : Nat := 9223372036854775807

def maxNat64 : Nat := 18446744073709551615

/-- What an integer comes to in 64 bits with a sign, where arithmetic that leaves their range wraps around. -/
def wrap64 (n : Int) : Int := n.bmod (maxNat64 + 1)

def natText (n : Nat) : List Char := Nat.toDigits 10 n

def text (n : Int) : List Char := if n < 0 then '-' :: natText n.natAbs else natText n.natAbs

inductive Fault where
  | malformed
  | outOfRange
deriving DecidableEq, Repr

def isDigit (c : Char) : Bool := '0' ≤ c && c ≤ '9'

def digitValue (c : Char) : Nat := c.toNat - '0'.toNat

/-- The number whose digits continue `acc`, at most `limit`. -/
def digits (limit : Nat) (acc : Nat) : List Char → Except Fault Nat
  | [] => .ok acc
  | c :: rest =>
    if !isDigit c then .error .malformed
    else
      let next := acc * 10 + digitValue c
      if limit < next then .error .outOfRange else digits limit next rest

def natural (limit : Nat) (cs : List Char) : Except Fault Nat :=
  if cs.isEmpty then .error .malformed else digits limit 0 cs

def int64 : List Char → Except Fault Int
  | '-' :: cs => (natural (maxInt64 + 1) cs).map fun n => -(n : Int)
  | '+' :: cs => (natural maxInt64 cs).map fun n => (n : Int)
  | cs => (natural maxInt64 cs).map fun n => (n : Int)

def nat64 : List Char → Except Fault Nat
  | '+' :: cs => natural maxNat64 cs
  | cs => natural maxNat64 cs

end ResourceTemplate.Integer
