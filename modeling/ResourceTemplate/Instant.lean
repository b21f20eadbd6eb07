import ResourceTemplate.Text.Integer

/-!
Points in time, read from and written as texts. An instant counts seconds since 1970 in UTC and
nanoseconds within the second; a leap second is the second before it with a second's worth of
nanoseconds more.
-/

namespace ResourceTemplate

structure Instant where
  seconds : Int
  nanos : Nat
deriving DecidableEq, Repr, Inhabited

namespace Instant

structure Fields where
  year : Int
  month : Nat
  day : Nat
  hour : Nat
  minute : Nat
  second : Nat
  nanos : Nat
deriving DecidableEq, Repr

def isLeapYear (year : Int) : Bool := year % 4 == 0 && (year % 100 != 0 || year % 400 == 0)

def daysInMonth (year : Int) (month : Nat) : Nat :=
  match month with
  | 2 => if isLeapYear year then 29 else 28
  | 4 | 6 | 9 | 11 => 30
  | _ => 31

def daysFromCivil (year : Int) (month day : Nat) : Int :=
  let y := if month ≤ 2 then year - 1 else year
  let era := y / 400
  let yearOfEra := y - era * 400
  let monthFromMarch : Int := ((month + 9) % 12 : Nat)
  let dayOfYear := (153 * monthFromMarch + 2) / 5 + (day : Int) - 1
  let dayOfEra := yearOfEra * 365 + yearOfEra / 4 - yearOfEra / 100 + dayOfYear
  era * 146097 + dayOfEra - 719468

def civilFromDays (days : Int) : Int × Nat × Nat :=
  let z := days + 719468
  let era := z / 146097
  let dayOfEra := z - era * 146097
  let yearOfEra := (dayOfEra - dayOfEra / 1460 + dayOfEra / 36524 - dayOfEra / 146096) / 365
  let dayOfYear := dayOfEra - (365 * yearOfEra + yearOfEra / 4 - yearOfEra / 100)
  let m := (5 * dayOfYear + 2) / 153
  let day := dayOfYear - (153 * m + 2) / 5 + 1
  let month := if m < 10 then m + 3 else m - 9
  let year := yearOfEra + era * 400
  (if month ≤ 2 then year + 1 else year, month.toNat, day.toNat)

/-- The calendar fields; a leap second is second 60. -/
def fields (t : Instant) : Fields :=
  let days := t.seconds / 86400
  let rest := (t.seconds - days * 86400).toNat
  let (year, month, day) := civilFromDays days
  ⟨year, month, day, rest / 3600, rest / 60 % 60, rest % 60 + t.nanos / 1000000000,
    t.nanos % 1000000000⟩

/-- The instant of calendar fields in a zone `offset` seconds ahead of UTC. -/
def ofFields? (f : Fields) (offset : Int) : Option Instant :=
  if f.month < 1 || 12 < f.month || f.day < 1 || daysInMonth f.year f.month < f.day ||
      24 ≤ f.hour || 60 ≤ f.minute || 61 ≤ f.second then none
  else
    let (second, leap) := if f.second == 60 then (59, 1000000000) else (f.second, 0)
    let ofDay : Int := (f.hour * 3600 + f.minute * 60 + second : Nat)
    some ⟨daysFromCivil f.year f.month f.day * 86400 + ofDay - offset, leap + f.nanos⟩

def isDigit (c : Char) : Bool := '0' ≤ c && c ≤ '9'

def digitsValue (cs : List Char) : Nat := cs.foldl (fun a c => a * 10 + (c.toNat - 48)) 0

def number? (least most : Nat) (cs : List Char) : Option (Nat × List Char) :=
  let ds := (cs.takeWhile isDigit).take most
  if ds.length < least then none else some (digitsValue ds, cs.drop ds.length)

def eat? (ch : Char) : List Char → Option (List Char)
  | c :: rest => if c == ch then some rest else none
  | [] => none

def fraction? (cs : List Char) : Option (Nat × List Char) :=
  match cs with
  | '.' :: rest =>
    let ds := rest.takeWhile isDigit
    if ds.isEmpty then none
    else
      let nine := ds.take 9
      some (digitsValue (nine ++ List.replicate (9 - nine.length) '0'), rest.dropWhile isDigit)
  | _ => some (0, cs)

/-- The offset of a zone in seconds: `Z`, or a sign, hours, a colon and minutes. -/
def offset? (colonOptional : Bool) (cs : List Char) : Option (Int × List Char) := do
  match cs with
  | 'Z' :: rest => return (0, rest)
  | 'z' :: rest => return (0, rest)
  | sign :: rest =>
    let negative ← if sign == '+' then some false
      else if sign == '-' || sign == '\u2212' then some true else none
    let (hours, rest) ← number? 2 2 rest
    let rest ← match rest with
      | ':' :: r => some r
      | r => if colonOptional then some r else none
    let (minutes, rest) ← number? 2 2 rest
    if 60 ≤ minutes || 24 ≤ hours then none
    else
      let seconds : Int := (hours * 3600 + minutes * 60 : Nat)
      return (if negative then -seconds else seconds, rest)
  | [] => none

/-- The strict form `YYYY-MM-DDTHH:MM:SS[.f](Z|±HH:MM)`; a blank may stand for the `T`. -/
def parse? (s : String) : Option Instant := do
  let (year, r) ← number? 4 4 s.toList
  let (month, r) ← number? 2 2 (← eat? '-' r)
  let (day, r) ← number? 2 2 (← eat? '-' r)
  let r ← match r with
    | c :: r => if c == 'T' || c == 't' || c == ' ' then some r else none
    | [] => none
  let (hour, r) ← number? 2 2 r
  let (minute, r) ← number? 2 2 (← eat? ':' r)
  let (second, r) ← number? 2 2 (← eat? ':' r)
  let (nanos, r) ← fraction? r
  let (offset, r) ← offset? false r
  if r.isEmpty then ofFields? ⟨year, month, day, hour, minute, second, nanos⟩ offset else none

/-- The relaxed form of option files: numbers need no padding, blanks may stand between the parts,
`UTC` names the zone, and the colon of an offset may be missing. -/
def parseRelaxed? (s : String) : Option Instant := do
  let skip := List.dropWhile (· == ' ')
  let (year, r) ← number? 1 4 (skip s.toList)
  let (month, r) ← number? 1 2 (skip (← eat? '-' (skip r)))
  let (day, r) ← number? 1 2 (skip (← eat? '-' (skip r)))
  let r ← match r with
    | c :: r => if c == 'T' || c == 't' || c == ' ' then some r else none
    | [] => none
  let (hour, r) ← number? 1 2 (skip r)
  let (minute, r) ← number? 1 2 (skip (← eat? ':' (skip r)))
  let (second, r) ← number? 1 2 (skip (← eat? ':' (skip r)))
  let (nanos, r) ← fraction? r
  let r := skip r
  let (offset, r) ←
    if (r.take 3).map Char.toLower == ['u', 't', 'c'] then some (0, r.drop 3) else offset? true r
  if (skip r).isEmpty then ofFields? ⟨year, month, day, hour, minute, second, nanos⟩ offset
  else none

def padded (width n : Nat) : List Char :=
  let ds := Integer.natText n
  List.replicate (width - ds.length) '0' ++ ds

/-- A year in four digits; one outside `0 … 9999` has a sign. -/
def yearText (year : Int) : List Char :=
  if 0 ≤ year ∧ year ≤ 9999 then padded 4 year.toNat
  else if year < 0 then '-' :: padded 4 year.natAbs
  else '+' :: padded 5 year.natAbs

def hour12 (hour : Nat) : Nat := if hour % 12 == 0 then 12 else hour % 12

/-- The parts of a date format, longest first: the letters and what they stand for. -/
def tokens : List (List Char × (Fields → List Char)) :=
  [(['y', 'y', 'y', 'y'], fun f => yearText f.year),
   (['y', 'y'], fun f => padded 2 (f.year % 100).toNat),
   (['M', 'M'], fun f => padded 2 f.month),
   (['d', 'd'], fun f => padded 2 f.day),
   (['H', 'H'], fun f => padded 2 f.hour),
   (['h', 'h'], fun f => padded 2 (hour12 f.hour)),
   (['m', 'm'], fun f => padded 2 f.minute),
   (['s', 's'], fun f => padded 2 f.second),
   (['f', 'f', 'f'], fun f => padded 3 (f.nanos / 1000000)),
   (['t', 't'], fun f => if f.hour < 12 then ['A', 'M'] else ['P', 'M'])]

/-- The text of a format after `skip` characters of a part that was written; what is no part
stands for itself. -/
def formatFrom (f : Fields) : (skip : Nat) → List Char → List Char
  | _, [] => []
  | skip + 1, _ :: rest => formatFrom f skip rest
  | 0, c :: rest =>
    match tokens.find? fun t => t.1.isPrefixOf (c :: rest) with
    | some (letters, part) => part f ++ formatFrom f (letters.length - 1) rest
    | none => c :: formatFrom f 0 rest

def standardFormat? : String → Option String
  | "u" => some "yyyy-MM-dd HH:mm:ssZ"
  | "s" => some "yyyy-MM-ddTHH:mm:ss"
  | "d" => some "MM/dd/yyyy"
  | _ => none

/-- Whether a date format is the round-trip format. Its fraction of seven digits is one that the formatter does not
know. -/
def isRoundTrip (pattern : String) : Bool := pattern == "o" || pattern == "O"

def format? (t : Instant) (pattern : String) : Option String :=
  if isRoundTrip pattern then none
  else some (String.ofList (formatFrom t.fields 0 ((standardFormat? pattern).getD pattern).toList))

/-- The written form of options: a fraction of 3, 6 or 9 digits if there is one, and `Z`. -/
def text (t : Instant) : String :=
  let f := t.fields
  let fraction :=
    if f.nanos == 0 then []
    else if f.nanos % 1000000 == 0 then '.' :: padded 3 (f.nanos / 1000000)
    else if f.nanos % 1000 == 0 then '.' :: padded 6 (f.nanos / 1000)
    else '.' :: padded 9 f.nanos
  String.ofList (formatFrom f 0 "yyyy-MM-ddTHH:mm:ss".toList ++ fraction ++ ['Z'])

end Instant
end ResourceTemplate
