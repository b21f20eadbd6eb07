import ResourceTemplate.Number.Binary64

namespace ResourceTemplate.Shortest

/-- A positive decimal `digits · 10 ^ exponent`. -/
structure Decimal where
  digits : Nat
  exponent : Int
deriving DecidableEq, Repr

def ratioLt (num den : Nat) (d : Decimal) : Bool :=
  if 0 ≤ d.exponent then num < d.digits * Nat.pow 10 d.exponent.toNat * den
  else num * Nat.pow 10 (-d.exponent).toNat < d.digits * den

def ltRatio (d : Decimal) (num den : Nat) : Bool :=
  if 0 ≤ d.exponent then d.digits * Nat.pow 10 d.exponent.toNat * den < num
  else d.digits * den < num * Nat.pow 10 (-d.exponent).toNat

/-- Four times the units of `2 ^ -1074` in one: the ends of the interval are integers in it. -/
def unit : Nat := Nat.pow 2 1076

def readsBack (x : Binary64) (d : Decimal) : Bool :=
  let step := Nat.pow 2 x.scale
  let isLeast := x.mantissa == Nat.pow 2 52 && x.scale != 0
  let low := 4 * x.magnitude - (if isLeast then step else 2 * step)
  let high := 4 * x.magnitude + 2 * step
  if x.mantissa % 2 == 0 then !ltRatio d low unit && !ratioLt high unit d
  else ratioLt low unit d && ltRatio d high unit

/-- The greatest decimal of the grid `10 ^ e` not above `num / den`. -/
def floorOn (num den : Nat) (e : Int) : Decimal :=
  ⟨if 0 ≤ e then num / (den * Nat.pow 10 e.toNat) else num * Nat.pow 10 (-e).toNat / den, e⟩

/-- Whether `num / den` is nearer to the grid point above `d` than to `d`; a tie goes to the even
digit. -/
def nearerAbove (num den : Nat) (d : Decimal) : Bool :=
  let middle : Decimal := ⟨2 * d.digits + 1, d.exponent⟩
  ltRatio middle (2 * num) den || (!ratioLt (2 * num) den middle && d.digits % 2 == 1)

/-- The candidate of one grid: the nearer of the two neighbours that read back. -/
def onGrid? (x : Binary64) (e : Int) : Option Decimal :=
  let below := floorOn x.magnitude (Nat.pow 2 1074) e
  let above : Decimal := ⟨below.digits + 1, e⟩
  match readsBack x below && below.digits != 0, readsBack x above with
  | true, true => some (if nearerAbove x.magnitude (Nat.pow 2 1074) below then above else below)
  | true, false => some below
  | false, true => some above
  | false, false => none

/-- The first of the grids `10 ^ e`, `10 ^ (e - 1)`, … with a decimal that reads back. -/
def search (x : Binary64) : Nat → Int → Option Decimal
  | 0, _ => none
  | n + 1, e =>
    match onGrid? x e with
    | some d => some d
    | none => search x n (e - 1)

def order (x : Binary64) : Int :=
  let whole := x.magnitude / Nat.pow 2 1074
  if whole != 0 then (Nat.toDigits 10 whole).length - 1
  else
    let inverse := (Nat.pow 2 1074 + x.magnitude - 1) / x.magnitude
    Int.negOfNat (Nat.toDigits 10 (inverse - 1)).length

def strip : Nat → Decimal → Decimal
  | 0, d => d
  | n + 1, d =>
    if d.digits != 0 && d.digits % 10 == 0 then strip n ⟨d.digits / 10, d.exponent + 1⟩ else d

/-- The shortest decimal that reads back as a double other than zero, and of those the nearest. -/
def decimal (x : Binary64) : Decimal :=
  match search x 18 (order x + 1) with
  | some d => strip 20 d
  | none => ⟨0, 0⟩

end ResourceTemplate.Shortest
