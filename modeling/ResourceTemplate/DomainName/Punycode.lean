import ResourceTemplate.Text.Integer
import ResourceTemplate.Text.Search

namespace ResourceTemplate.Punycode

/-- The bias of the next distance after a distance, for `points` characters in all. -/
def adapt (delta points : Nat) (first : Bool) : Nat :=
  let delta := if first then delta / 700 else delta / 2
  shrink 64 0 (delta + delta / points)
where
  shrink : (fuel k delta : Nat) → Nat
    | 0, k, _ => k
    | fuel + 1, k, delta =>
      if 455 < delta then shrink fuel (k + 36) (delta / 35) else k + 36 * delta / (delta + 38)

/-- The least digit that does not end an integer at the place `k`. -/
def threshold (bias k : Nat) : Nat :=
  if k ≤ bias then 1 else if bias + 26 ≤ k then 26 else k - bias

def digit (n : Nat) : Char := if n < 26 then Char.ofNat (97 + n) else Char.ofNat (48 + (n - 26))

def digitValue? (c : Char) : Option Nat :=
  if 'a' ≤ c && c ≤ 'z' then some (c.toNat - 97)
  else if 'A' ≤ c && c ≤ 'Z' then some (c.toNat - 65)
  else if '0' ≤ c && c ≤ '9' then some (c.toNat - 48 + 26)
  else none

def integer (bias : Nat) : (fuel k n : Nat) → List Char
  | 0, _, _ => []
  | fuel + 1, k, n =>
    let t := threshold bias k
    if n < t then [digit n]
    else digit (t + (n - t) % (36 - t)) :: integer bias fuel (k + 36) ((n - t) / (36 - t))

structure Writing where
  delta : Nat
  bias : Nat
  handled : Nat
  out : List Char

/-- Go over the label once for the code point `n`. -/
def pass (basic n : Nat) (w : Writing) (label : List Char) : Writing :=
  label.foldl (fun w c =>
    if c.toNat < n then { w with delta := w.delta + 1 }
    else if c.toNat == n then
      { delta := 0
        bias := adapt w.delta (w.handled + 1) (w.handled == basic)
        handled := w.handled + 1
        out := w.out ++ integer w.bias 64 36 w.delta }
    else w) w

/-- Write the given code points, in ascending order, from `n` on. -/
def writeFrom (label : List Char) (basic : Nat) : (points : List Nat) → (n : Nat) → Writing → List Char
  | [], _, w => w.out
  | m :: rest, n, w =>
    let w := { w with delta := w.delta + (m - n) * (w.handled + 1) }
    let w := pass basic m w label
    writeFrom label basic rest (m + 1) { w with delta := w.delta + 1 }

def encode (label : List Char) : List Char :=
  let basic := label.filter fun c => c.toNat < 0x80
  let points := ((label.filter fun c => 0x80 ≤ c.toNat).map Char.toNat).eraseDups.mergeSort
  let start : List Char := if basic.isEmpty then [] else basic ++ ['-']
  writeFrom label basic.length points 0x80 ⟨0, 72, basic.length, start⟩

def maxDistance : Nat := 4294967295

/-- An integer under a bias, added to `sum`, and the digits after it. `weight` is that of the next
digit. -/
def readInteger? (bias k weight sum : Nat) : List Char → Option (Nat × List Char)
  | [] => none
  | c :: rest =>
    match digitValue? c with
    | none => none
    | some d =>
      let sum := sum + d * weight
      let t := threshold bias k
      if maxDistance < sum then none
      else if d < t then some (sum, rest)
      else if maxDistance < weight * (36 - t) then none
      else readInteger? bias (k + 36) (weight * (36 - t)) sum rest

/-- The characters of a label, given those read so far, the place and the code point of the last one
read. `fuel` bounds the number of characters to come. -/
def readFrom? : (fuel : Nat) → (label : List Char) → (place point bias : Nat) → List Char →
    Option (List Char)
  | _, label, _, _, _, [] => some label
  | 0, _, _, _, _, _ :: _ => none
  | fuel + 1, label, place, point, bias, cs => do
    let (sum, rest) ← readInteger? bias 36 1 place cs
    let count := label.length + 1
    let point := point + sum / count
    if 0x10FFFF < point || (0xD800 ≤ point && point < 0xE000) then none
    else
      let at' := sum % count
      readFrom? fuel (label.take at' ++ Char.ofNat point :: label.drop at') (at' + 1) point
        (adapt (sum - place) count (place == 0)) rest

/-- The label of a written form, whose letters may be of either case. -/
def decode? (cs : List Char) : Option (List Char) :=
  let (basic, rest) := match Text.lastIndexOf? ['-'] cs with
    | some (i + 1) => (cs.take (i + 1), cs.drop (i + 2))
    | _ => ([], cs)
  if basic.any fun c => 0x80 ≤ c.toNat then none
  else readFrom? rest.length (basic.map Char.toLower) 0 0x80 72 rest

end ResourceTemplate.Punycode
