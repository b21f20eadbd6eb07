import ResourceTemplate.DomainName.Composition
import ResourceTemplate.DomainName.Punycode
import ResourceTemplate.DomainName.Table.Composition
import ResourceTemplate.DomainName.Table.Mapping
import ResourceTemplate.DomainName.Table.Writing

namespace ResourceTemplate.DomainName

def virama : Nat := 9

/-- The first character that joining does not look through is of one of the tables. -/
def meets (tables : List (List CodeTable.Range)) : List Char → Bool
  | [] => false
  | c :: rest =>
    tables.any (fun t => CodeTable.holds t c) || (CodeTable.holds joinsThrough c && meets tables rest)

/-- Whether a character may stand between others, the nearest first on both sides. A joiner follows
a virama; the one that keeps letters apart may also stand between letters that would join. -/
def joinerAllowed (c : Char) (before after : List Char) : Bool :=
  if c == '\u200C' || c == '\u200D' then
    (match before with
      | d :: _ => markClass d == virama
      | [] => false) ||
      (c == '\u200C' && meets [joinsNext, joinsBoth] before && meets [joinsBefore, joinsBoth] after)
  else true

/-- Whether all joiners of a label may stand where they do; `before` holds what is before, last
first. -/
def joinersAllowed (before : List Char) : List Char → Bool
  | [] => true
  | c :: rest => joinerAllowed c before rest && joinersAllowed (c :: before) rest

def isLabel (label : List Char) : Bool :=
  (match label with
    | c :: _ => !CodeTable.holds marks c
    | [] => true) && joinersAllowed [] label

def direction (c : Char) : Direction :=
  match directions.find? fun e => CodeTable.holds e.2 c with
  | some e => e.1
  | none => .left

/-- Whether a character makes a name one that is written from right to left in part. -/
def turns (c : Char) : Bool := [.right, .arabicLetter, .arabicNumber].contains (direction c)

def inLeft : List Direction :=
  [.left, .europeanNumber, .europeanSeparator, .commonSeparator, .europeanTerminator, .neutral,
   .boundaryNeutral, .mark]

def inRight : List Direction :=
  [.right, .arabicLetter, .arabicNumber, .europeanNumber, .europeanSeparator, .commonSeparator,
   .europeanTerminator, .neutral, .boundaryNeutral, .mark]

/-- Whether a label has one direction: that of its first character. It ends with a letter or a
number, marks left aside, and numbers of a label from right to left are of one kind. -/
def hasDirection (label : List Char) : Bool :=
  let ds := label.map direction
  let ending := (ds.reverse.dropWhile (· == .mark)).head?
  match ds with
  | [] => true
  | .left :: _ =>
    ds.all inLeft.contains && [some .left, some .europeanNumber].contains ending
  | d :: _ =>
    [Direction.right, .arabicLetter].contains d && ds.all inRight.contains &&
      [some .right, some .arabicLetter, some .europeanNumber, some .arabicNumber].contains ending &&
      !(ds.contains .europeanNumber && ds.contains .arabicNumber)

def haveDirections (labels : List (List Char)) : Bool :=
  !(labels.any fun l => l.any turns) || labels.all hasDirection

def isForbidden (c : Char) : Bool :=
  c.toNat ≤ 0x20 || c.toNat == 0x7F ||
    ['#', '/', ':', '<', '>', '?', '@', '[', '\\', ']', '^', '|', '%'].contains c

def meaning? (c : Char) : Option (List Char) :=
  if CodeTable.holds valid c then some [c]
  else
    match CodeTable.textOf? mapped c with
    | some text => some text
    | none => if CodeTable.holds ignored c then some [] else none

def meanings? : List Char → Option (List Char)
  | [] => some []
  | c :: rest => do return (← meaning? c) ++ (← meanings? rest)

def isAscii (c : Char) : Bool := c.toNat < 0x80

def writtenStart : List Char := ['x', 'n', '-', '-']

def maxRead : Nat := 2000
def maxWritten : Nat := 1000

structure Label where
  ascii : List Char
  meant : List Char
deriving DecidableEq, Repr

def readLabel? (written : List Char) : Option Label := do
  if written.getLast? == some '-' || written.isEmpty || maxRead < written.length then none
  else
    let meant ← Punycode.decode? written
    if meant.all (fun c => CodeTable.holds valid c && !isForbidden c) && compose meant == meant &&
        !writtenStart.isPrefixOf meant && isLabel meant then
      return ⟨writtenStart ++ written, meant⟩
    else none

def label? (text : List Char) : Option Label :=
  if writtenStart.isPrefixOf text then readLabel? (text.drop writtenStart.length)
  else if !isLabel text || text.any isForbidden then none
  else if text.all isAscii then some ⟨text, text⟩
  else if maxWritten < text.length then none
  else some ⟨writtenStart ++ Punycode.encode text, text⟩

def toAscii? (cs : List Char) : Option (List Char) := do
  let text := compose (← meanings? cs)
  let labels ← (Text.splitOn ['.'] text).mapM label?
  if haveDirections (labels.map Label.meant) then
    return List.intercalate ['.'] (labels.map Label.ascii)
  else none

end ResourceTemplate.DomainName
