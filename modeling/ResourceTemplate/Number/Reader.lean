import ResourceTemplate.Number.Basic

/-!
Numbers of JSON texts. A token without point and exponent is an integer while it fits 64 bits;
every other token is a double, read from its leading digits: the digits that fit 64 bits are
rounded to a double, which is then scaled by a power of ten and rounded again.
-/

namespace ResourceTemplate.Number

def isDigit (c : Char) : Bool := '0' ≤ c && c ≤ '9'

def digitValue (c : Char) : Nat := c.toNat - '0'.toNat

/-- Extend a significand by digits as long as it fits 64 bits; the digits left over come second. -/
def gather (acc : Nat) : List Char → Nat × List Char
  | [] => (acc, [])
  | c :: rest =>
    let next := acc * 10 + digitValue c
    if next ≤ Integer.maxNat64 then gather next rest else (acc, c :: rest)

/-- `± significand · 10 ^ exponent`. Powers of ten beyond `10 ^ 308` are divided out in two steps;
below `10 ^ -616` nothing is left of 64 bits. -/
def scaled (negative : Bool) (significand : Nat) (exponent : Int) : Option Binary64 :=
  (Binary64.ofRatio negative significand 1).bind fun x =>
    if significand == 0 then some x
    else if exponent > 308 then none
    else if 0 ≤ exponent then x.mulPowTen exponent.toNat
    else if -308 ≤ exponent then x.divPowTen (-exponent).toNat
    else if -616 ≤ exponent then
      (x.divPowTen 308).bind fun y => y.divPowTen (-exponent - 308).toNat
    else some (Binary64.zero negative)

/-- The written exponent: an `e`, an optional sign and digits. -/
def exponent? : List Char → Option (Int × List Char)
  | c :: rest =>
    if c == 'e' || c == 'E' then
      let (negative, rest) := match rest with
        | '+' :: r => (false, r)
        | '-' :: r => (true, r)
        | r => (false, r)
      let ds := rest.takeWhile isDigit
      if ds.isEmpty then none
      else
        let n : Int := (ds.foldl (fun a d => a * 10 + digitValue d) 0 : Nat)
        some (if negative then -n else n, rest.dropWhile isDigit)
    else some (0, c :: rest)
  | [] => some (0, [])

/-- The integer part: a single zero or digits that begin with another digit. -/
def whole? (cs : List Char) : Option (List Char × List Char) :=
  let ds := cs.takeWhile isDigit
  match ds with
  | [] => none
  | ['0'] => some (ds, cs.dropWhile isDigit)
  | '0' :: _ => none
  | _ => some (ds, cs.dropWhile isDigit)

def ofWhole (negative : Bool) (significand : Nat) : Option Number :=
  if negative then
    if significand == 0 || Integer.maxInt64 + 1 < significand then
      (Binary64.ofRatio true significand 1).map .float
    else some (.int (-significand))
  else some (.int significand)

def read? (cs : List Char) : Option (Number × List Char) := do
  let (negative, cs) := match cs with
    | '-' :: r => (true, r)
    | r => (false, r)
  let (ds, rest) ← whole? cs
  let (significand, dropped) := gather 0 ds
  match rest with
  | '.' :: r =>
    let fs := r.takeWhile isDigit
    if fs.isEmpty then none
    else
      let (significand, ignored) := gather significand fs
      let (e, rest) ← exponent? (r.dropWhile isDigit)
      let shift : Int := (dropped.length : Int) - (fs.length - ignored.length : Nat)
      let x ← scaled negative significand (shift + e)
      return (.float x, rest)
  | c :: _ =>
    if c == 'e' || c == 'E' then
      let (e, rest) ← exponent? rest
      let x ← scaled negative significand (dropped.length + e)
      return (.float x, rest)
    else if dropped.isEmpty then return (← ofWhole negative significand, rest)
    else return (.float (← scaled negative significand dropped.length), rest)
  | [] =>
    if dropped.isEmpty then return (← ofWhole negative significand, [])
    else return (.float (← scaled negative significand dropped.length), [])

end ResourceTemplate.Number
