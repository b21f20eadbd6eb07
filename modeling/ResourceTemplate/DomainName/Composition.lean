import ResourceTemplate.DomainName.Table.Composition

namespace ResourceTemplate.DomainName

/-- The class of a mark; the class of all other characters is 0. -/
def markClass (c : Char) : Nat :=
  match markClasses.find? fun e => CodeTable.holds e.2 c with
  | some e => e.1
  | none => 0

/-- The syllables of Hangul: their first code points and the numbers of vowels and of tails. -/
def firstSyllable : Nat := 0xAC00
def firstLead : Nat := 0x1100
def firstVowel : Nat := 0x1161
def noTail : Nat := 0x11A7
def leads : Nat := 19
def vowels : Nat := 21
def tails : Nat := 28

def syllableParts? (c : Char) : Option (List Char) :=
  let i := c.toNat - firstSyllable
  if c.toNat < firstSyllable || leads * vowels * tails ≤ i then none
  else
    let lead := Char.ofNat (firstLead + i / (vowels * tails))
    let vowel := Char.ofNat (firstVowel + i / tails % vowels)
    some (if i % tails == 0 then [lead, vowel]
      else [lead, vowel, Char.ofNat (noTail + i % tails)])

/-- The characters a character is composed of. `fuel` bounds the steps of composition. -/
def parts : (fuel : Nat) → Char → List Char
  | 0, c => [c]
  | fuel + 1, c =>
    match syllableParts? c with
    | some letters => letters
    | none =>
      match CodeTable.textOf? composed c with
      | some (first :: rest) => parts fuel first ++ rest
      | _ => [c]

/-- Put a mark behind the marks of its class and those before it, in a text held last first. -/
def settleMark (c : Char) : List Char → List Char
  | [] => [c]
  | d :: before =>
    if markClass c != 0 && markClass c < markClass d then d :: settleMark c before
    else c :: d :: before

def orderMarks (cs : List Char) : List Char :=
  (cs.foldl (fun before c => settleMark c before) []).reverse

def syllable? (a b : Char) : Option Char :=
  let lead := a.toNat - firstLead
  let vowel := b.toNat - firstVowel
  let open' := a.toNat - firstSyllable
  let tail := b.toNat - noTail
  if firstLead ≤ a.toNat && lead < leads && firstVowel ≤ b.toNat && vowel < vowels then
    some (Char.ofNat (firstSyllable + (lead * vowels + vowel) * tails))
  else if firstSyllable ≤ a.toNat && open' < leads * vowels * tails && open' % tails == 0 &&
      noTail < b.toNat && tail < tails then
    some (Char.ofNat (a.toNat + tail))
  else none

def composite? (a b : Char) : Option Char :=
  match syllable? a b with
  | some c => some c
  | none => ((CodeTable.given composed).find? fun e => e.2 == [a, b]).map Prod.fst

/-- Compose a character with the characters that follow it. `between` holds those since then that
were not composed, last first: a character is out of reach behind one of its own class or of a
later one. -/
def composeFrom (base : Char) (between : List Char) : List Char → List Char
  | [] => base :: between.reverse
  | c :: rest =>
    let reached := match between with
      | [] => true
      | d :: _ => markClass d < markClass c
    match (if reached then composite? base c else none) with
    | some joined => composeFrom joined between rest
    | none =>
      if markClass c == 0 then base :: between.reverse ++ composeFrom c [] rest
      else composeFrom base (c :: between) rest

def composeAll : List Char → List Char
  | [] => []
  | c :: rest => if markClass c == 0 then composeFrom c [] rest else c :: composeAll rest

def compose (cs : List Char) : List Char := composeAll (orderMarks (cs.flatMap (parts 8)))

end ResourceTemplate.DomainName
