import ResourceTemplate.Text.CaseTable

namespace ResourceTemplate.Case

def shift (runs : List Run) (c : Char) : Char :=
  match runs.find? fun r => r.1 ≤ c.toNat && c.toNat ≤ r.2.1 && (c.toNat - r.1) % r.2.2.1 == 0 with
  | some (_, _, _, d) => Char.ofNat ((c.toNat : Int) + d).toNat
  | none => c

/-- One character mapped: by an expansion if it has one, else by its run. -/
def mapChar (expansions : List (Nat × List Nat)) (runs : List Run) (c : Char) : List Char :=
  match expansions.lookup c.toNat with
  | some cs => cs.map Char.ofNat
  | none => [shift runs c]

def inRanges (ranges : List (Nat × Nat)) (c : Char) : Bool :=
  ranges.any fun r => r.1 ≤ c.toNat && c.toNat ≤ r.2

def casedNext (cs : List Char) : Bool :=
  match cs.dropWhile (inRanges ignorableRanges) with
  | c :: _ => inRanges casedRanges c
  | [] => false

/-- The small forms of the characters after those of `before` (reversed). A sigma ends a word when
a letter stands before it and none after. -/
def lowerFrom (before : List Char) : List Char → List Char
  | [] => []
  | c :: rest =>
    let small :=
      if c.toNat < 0x80 then [c.toLower]
      else if c == 'Σ' then if casedNext before && !casedNext rest then ['ς'] else ['σ']
      else mapChar lowerExpansions lowerRuns c
    small ++ lowerFrom (c :: before) rest

def lower (s : String) : String := String.ofList (lowerFrom [] s.toList)

def upperChar (c : Char) : List Char :=
  if c.toNat < 0x80 then [c.toUpper] else mapChar upperExpansions upperRuns c

def upper (s : String) : String := String.ofList (s.toList.flatMap upperChar)

end ResourceTemplate.Case
