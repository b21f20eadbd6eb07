/-!
Finite binary floating-point numbers of 64 bits. A number is `± mantissa · 2 ^ scale / 2 ^ 1074`
in its one canonical form, so values compare as integers and every operation is an exact ratio
rounded once to the nearest number, ties to the even mantissa.
-/

namespace ResourceTemplate

/-- The mantissa has at most 53 bits; it has fewer only at the smallest scale. -/
def Binary64.Canonical (mantissa scale : Nat) : Prop :=
  mantissa < Nat.pow 2 53 ∧ scale ≤ 2045 ∧ (Nat.pow 2 52 ≤ mantissa ∨ scale = 0)

instance (mantissa scale : Nat) : Decidable (Binary64.Canonical mantissa scale) := by
  unfold Binary64.Canonical; infer_instance

/-- A finite double. Zero has two signs. -/
structure Binary64 where
  negative : Bool
  mantissa : Nat
  scale : Nat
  canonical : Binary64.Canonical mantissa scale
deriving DecidableEq

namespace Binary64

instance : Inhabited Binary64 := ⟨⟨false, 0, 0, by decide⟩⟩

def zero (negative : Bool) : Binary64 := ⟨negative, 0, 0, by decide⟩

def magnitude (x : Binary64) : Nat := x.mantissa * Nat.pow 2 x.scale

def scaled (x : Binary64) : Int := if x.negative then -(x.magnitude : Int) else x.magnitude

def roundHalfEven (num den : Nat) : Nat :=
  let q := num / den
  let twice := 2 * (num % den)
  if twice < den then q else if den < twice then q + 1 else if q % 2 == 0 then q else q + 1

/-- The double nearest to `± num / den`; `none` if the magnitude is out of range or `den` is zero. -/
def ofRatio (negative : Bool) (num den : Nat) : Option Binary64 :=
  if den == 0 then none else
  let units := num * Nat.pow 2 1074
  let bits := if units < den then 0 else (units / den).log2 + 1
  let scale := bits - 53
  let mantissa := roundHalfEven units (den * Nat.pow 2 scale)
  let (mantissa, scale) :=
    if mantissa == Nat.pow 2 53 then (Nat.pow 2 52, scale + 1) else (mantissa, scale)
  if h : Canonical mantissa scale then some ⟨negative, mantissa, scale, h⟩ else none

def ofInt (n : Int) : Option Binary64 := ofRatio (n < 0) n.natAbs 1

/-- The double nearest to `± digits · 10 ^ exponent`. The guards keep the power small: a value of
`10 ^ 310` or more is out of range, one below `10 ^ -350` rounds to zero. -/
def ofDecimal (negative : Bool) (digits : Nat) (exponent : Int) : Option Binary64 :=
  if digits == 0 then some (zero negative)
  else
    let order := exponent + (Nat.toDigits 10 digits).length
    if order > 310 then none
    else if order < -350 then some (zero negative)
    else if 0 ≤ exponent then ofRatio negative (digits * Nat.pow 10 exponent.toNat) 1
    else ofRatio negative digits (Nat.pow 10 (-exponent).toNat)

def mulPowTen (x : Binary64) (e : Nat) : Option Binary64 :=
  (ofRatio false (Nat.pow 10 e) 1).bind fun p =>
    ofRatio x.negative (x.magnitude * p.magnitude) (Nat.pow 2 2148)

def divPowTen (x : Binary64) (e : Nat) : Option Binary64 :=
  (ofRatio false (Nat.pow 10 e) 1).bind fun p => ofRatio x.negative x.magnitude p.magnitude

def truncate (x : Binary64) : Int :=
  let n : Int := (x.magnitude / Nat.pow 2 1074 : Nat)
  if x.negative then -n else n

def same (x y : Binary64) : Bool := x.scaled == y.scaled

end Binary64
end ResourceTemplate
