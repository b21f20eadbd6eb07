import ResourceTemplate.DomainName.Ascii
import ResourceTemplate.Uri.Basic

namespace ResourceTemplate.Uri

def forbiddenInHost (c : Char) : Bool :=
  c.toNat == 0 || ['\t', '\n', '\r', ' ', '#', '/', ':', '<', '>', '?', '@', '[', '\\', ']', '^',
    '|'].contains c

/-- The number of one part of an address of version 4: decimal, octal or hexadecimal. -/
def ipv4Part? (cs : List Char) : Option Nat :=
  let (radix, ds) := match cs with
    | '0' :: 'x' :: r => (16, r)
    | '0' :: 'X' :: r => (16, r)
    | '0' :: c :: r => (8, c :: r)
    | r => (10, r)
  if cs.isEmpty then none
  else ds.foldl (fun acc c => do
    let d ← Utf8.hexDigit? (UInt8.ofNat c.toNat)
    if 0x7F < c.toNat || radix ≤ d then none else return (← acc) * radix + d) (some 0)

def labels (cs : List Char) : List (List Char) :=
  let parts := Text.splitOn ['.'] cs
  if 1 < parts.length && parts.getLast? == some [] then parts.dropLast else parts

/-- Whether the last label is a number, so that the host must be an address of version 4. -/
def endsInNumber (cs : List Char) : Bool :=
  match (labels cs).getLast? with
  | some last =>
    (!last.isEmpty && last.all fun c => '0' ≤ c && c ≤ '9') ||
      (match last with
        | '0' :: 'x' :: _ => (ipv4Part? last).isSome
        | '0' :: 'X' :: _ => (ipv4Part? last).isSome
        | _ => false)
  | none => false

def ipv4? (cs : List Char) : Option (List Char) := do
  let parts := labels cs
  if 4 < parts.length then none
  else
    let numbers ← parts.mapM ipv4Part?
    let last ← numbers.getLast?
    let init := numbers.dropLast
    let span := Nat.pow 256 (5 - numbers.length)
    if init.any (255 < ·) || span ≤ last then none
    else
      let n := init.foldl (fun n x => n * 256 + x) 0 * span + last
      return List.intercalate ['.'] ([n / 16777216, n / 65536 % 256, n / 256 % 256, n % 256].map
        Integer.natText)

/-- The groups of a part of an address of version 6; at its end the last may be an address of
version 4. -/
def ipv6Groups? (atEnd : Bool) (cs : List Char) : Option (List Nat) :=
  if cs.isEmpty then some []
  else
    let parts := Text.splitOn [':'] cs
    let group? (p : List Char) : Option Nat :=
      if p.isEmpty || 4 < p.length then none
      else p.foldl (fun acc c => do
        let d ← Utf8.hexDigit? (UInt8.ofNat c.toNat)
        if 0x7F < c.toNat then none else return (← acc) * 16 + d) (some 0)
    match parts.getLast? with
    | some last =>
      if atEnd && last.contains '.' then do
        let bytes := Text.splitOn ['.'] last
        let numbers ← bytes.mapM fun b =>
          if b.all Integer.isDigit && (b.length == 1 || b.head? != some '0') then
            (Integer.natural 255 b).toOption
          else none
        match numbers with
        | [a, b, c, d] => return (← parts.dropLast.mapM group?) ++ [a * 256 + b, c * 256 + d]
        | _ => none
      else parts.mapM group?
    | none => none

def ipv6? (cs : List Char) : Option (List Nat) :=
  match Text.splitOnce? [':', ':'] cs with
  | some (left, right) => do
    let l ← ipv6Groups? false left
    let r ← ipv6Groups? true right
    if 7 < l.length + r.length then none
    else return l ++ List.replicate (8 - l.length - r.length) 0 ++ r
  | none => do
    let gs ← ipv6Groups? true cs
    if gs.length == 8 then return gs else none

/-- The first longest run of at least two zero groups: its place and length. -/
def zeroRun? (gs : List Nat) : Option (Nat × Nat) :=
  let runs := (List.range gs.length).map fun i => (i, ((gs.drop i).takeWhile (· == 0)).length)
  let best := runs.foldl (fun b r => if b.2 < r.2 then r else b) (0, 1)
  if best.2 < 2 then none else some best

def ipv6Text (gs : List Nat) : List Char :=
  let join (xs : List Nat) : List Char := List.intercalate [':'] (xs.map (Nat.toDigits 16))
  match zeroRun? gs with
  | some (i, n) => join (gs.take i) ++ ':' :: ':' :: join (gs.drop (i + n))
  | none => join gs

/-- The host of a written host: bracketed, or a domain name for special schemes. -/
def host? (special : Bool) (cs : List Char) : Option (List Char) :=
  match cs with
  | '[' :: rest =>
    if rest.getLast? == some ']' then
      (ipv6? rest.dropLast).map fun gs => '[' :: ipv6Text gs ++ [']']
    else none
  | _ =>
    if special then do
      let name ← Percent.decode? (String.ofList cs)
      let ascii ← DomainName.toAscii? name.toList
      if ascii.isEmpty then none
      else if endsInNumber ascii then ipv4? ascii
      else return ascii
    else if cs.any forbiddenInHost then none
    else some (escape [] cs)

end ResourceTemplate.Uri
