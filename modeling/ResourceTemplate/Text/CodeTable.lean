import ResourceTemplate.Text.Search

/-!
Tables of code points as compact text, in lines of entries with blanks between them. Numbers are
hexadecimal, in capitals.

```text
range := first | first '-' last
rule  := first '-' last '>' target | first '-' last '/2>' target | first '>' text (',' text)*
text  := target ('.' target)*
```

The rules of the first two kinds move all characters of a range, or every other one, by the same
distance. A rule of the third kind gives a text to each character from the first on.
-/

namespace ResourceTemplate.CodeTable

def number (cs : List Char) : Nat :=
  cs.foldl (fun n c => n * 16 + (if c.isDigit then c.toNat - 48 else c.toNat - 55)) 0

def entries (lines : List String) : List (List Char) :=
  lines.flatMap fun line => Text.splitOn [' '] line.toList

structure Range where
  first : Nat
  last : Nat
deriving DecidableEq, Repr

def Range.ofText (cs : List Char) : Range :=
  match Text.splitOnce? ['-'] cs with
  | some (first, last) => ⟨number first, number last⟩
  | none => ⟨number cs, number cs⟩

def ranges (lines : List String) : List Range := (entries lines).map Range.ofText

def holds (rs : List Range) (c : Char) : Bool :=
  rs.any fun r => r.first ≤ c.toNat && c.toNat ≤ r.last

inductive Rule where
  /-- Every `step`-th character of a range is moved as far as the first is from its target. -/
  | move (range : Range) (step target : Nat)
  /-- The texts of the characters from the first on. -/
  | give (first : Nat) (texts : List (List Char))
deriving DecidableEq, Repr

def Rule.ofText (cs : List Char) : Rule :=
  let text (ds : List Char) : List Char := (Text.splitOn ['.'] ds).map fun d => Char.ofNat (number d)
  match Text.splitOnce? ['>'] cs with
  | none => .give 0 []
  | some (source, target) =>
    if source.contains '-' then
      match Text.splitOnce? ['/', '2'] source with
      | some (range, _) => .move (Range.ofText range) 2 (number target)
      | none => .move (Range.ofText source) 1 (number target)
    else .give (number source) ((Text.splitOn [','] target).map text)

def rules (lines : List String) : List Rule := (entries lines).map Rule.ofText

def Rule.textOf? (rule : Rule) (c : Char) : Option (List Char) :=
  match rule with
  | .move range step target =>
    if range.first ≤ c.toNat && c.toNat ≤ range.last && (c.toNat - range.first) % step == 0 then
      some [Char.ofNat (target + (c.toNat - range.first))]
    else none
  | .give first texts => if first ≤ c.toNat then texts[c.toNat - first]? else none

def textOf? (rules : List Rule) (c : Char) : Option (List Char) :=
  rules.findSome? fun rule => rule.textOf? c

def given (rules : List Rule) : List (Char × List Char) :=
  rules.flatMap fun rule =>
    match rule with
    | .give first texts => texts.zipIdx.map fun (text, i) => (Char.ofNat (first + i), text)
    | .move .. => []

end ResourceTemplate.CodeTable
