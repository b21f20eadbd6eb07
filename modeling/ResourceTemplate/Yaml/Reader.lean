import ResourceTemplate.Yaml.Scalar

/-!
Reading of YAML texts: block and flow collections of plain and quoted scalars, with comments. A text
holds one document. Anchors, tags, directives, block scalars and explicit keys are refused.
-/

namespace ResourceTemplate.Yaml

mutual

/-- A value in flow context. `fuel` bounds the number of steps. -/
def flowNode : (fuel : Nat) → Cursor → Option (Yaml × Cursor)
  | 0, _ => none
  | fuel + 1, c =>
    if c.isEnd then none
    else if startsQuoted c.rest then quotedScalar c
    else
      match c.rest with
      | '[' :: _ => do
        let (items, c) ← flowItems fuel ((c.advance 1).skip true true)
        return (.seq items, c)
      | '\x7b' :: _ => do
        let (entries, c) ← flowEntries fuel ((c.advance 1).skip true true)
        return (.map entries, c)
      | rest => if startsPlain true rest then plainScalar true 0 c else none

def flowValue : (fuel : Nat) → Cursor → Option (Yaml × Cursor)
  | 0, _ => none
  | fuel + 1, c =>
    match c.rest.head? with
    | some ch =>
      if ch == ',' || ch == ']' || ch == '\x7d' then some (nothing, c) else flowNode fuel c
    | none => none

def flowPair : (fuel : Nat) → Cursor → Option (Yaml × Option Yaml × Cursor)
  | 0, _ => none
  | fuel + 1, c => do
    let (key, next) ← flowNode fuel c
    let next := next.skip true true
    if next.rest.head? == some ':' then
      if next.line ≠ c.line then none
      else
        let (value, next) ← flowValue fuel ((next.advance 1).skip true true)
        return (key, some value, next.skip true true)
    else return (key, none, next)

/-- The items of a flow sequence after its bracket or a comma. A pair is a mapping of one entry. -/
def flowItems : (fuel : Nat) → Cursor → Option (List Yaml × Cursor)
  | 0, _ => none
  | fuel + 1, c =>
    if c.rest.head? == some ']' then some ([], c.advance 1)
    else do
      let (key, value, next) ← flowPair fuel c
      let item := match value with
        | some v => .map [(key, v)]
        | none => key
      match next.rest.head? with
      | some ',' =>
        let (items, last) ← flowItems fuel ((next.advance 1).skip true true)
        return (item :: items, last)
      | some ']' => return ([item], next.advance 1)
      | _ => none

def flowEntries : (fuel : Nat) → Cursor → Option (List (Yaml × Yaml) × Cursor)
  | 0, _ => none
  | fuel + 1, c =>
    if c.rest.head? == some '\x7d' then some ([], c.advance 1)
    else do
      let (key, value, next) ← flowPair fuel c
      let entry := (key, value.getD nothing)
      match next.rest.head? with
      | some ',' =>
        let (entries, last) ← flowEntries fuel ((next.advance 1).skip true true)
        return (entry :: entries, last)
      | some '\x7d' => return ([entry], next.advance 1)
      | _ => none

end

/-- A scalar or flow collection in block context; further lines of a plain scalar are indented. -/
def leaf (indent : Nat) (c : Cursor) : Option (Yaml × Cursor) :=
  if startsQuoted c.rest then quotedScalar c
  else
    match c.rest with
    | '[' :: _ => flowNode c.rest.length c
    | '\x7b' :: _ => flowNode c.rest.length c
    | rest => if startsPlain false rest then plainScalar false indent c else none

/-- A leaf that nothing follows on its line, and the cursor at the next token. -/
def lastLeaf (indent : Nat) (c : Cursor) : Option (Yaml × Cursor) := do
  let (v, after) ← leaf indent c
  let next := after.skip false true
  if next.rest.isEmpty || after.line < next.line then return (v, next) else none

def startsItem : List Char → Bool
  | '-' :: rest => isGap rest
  | _ => false

def keyText (c : Cursor) : Option (Yaml × Cursor) :=
  if startsPlain false c.rest then do
    let (text, rest) ← plainLine false [] c.rest
    return (.plain (String.ofList text), c.atRest rest)
  else leaf 0 c

def blockKey (c : Cursor) : Option (Yaml × Cursor) := do
  let (key, next) ← keyText c
  if next.line ≠ c.line then none
  else
    let colon := { next with
      rest := next.rest.dropWhile fun ch => ch == ' ' || ch == '\t'
      column := next.column + (next.rest.takeWhile fun ch => ch == ' ' || ch == '\t').length }
    match colon.rest with
    | ':' :: rest => if isGap rest then some (key, colon.advance 1) else none
    | _ => none

mutual

/-- A value in block context that begins here. Collections begin at the column of their first
token; the further lines of a scalar have the indentation. -/
def blockNode : (fuel indent : Nat) → Cursor → Option (Yaml × Cursor)
  | 0, _, _ => none
  | fuel + 1, indent, c =>
    if startsItem c.rest then do
      let (items, c) ← blockItems fuel c.column c
      return (.seq items, c)
    else if (blockKey c).isSome then do
      let (entries, c) ← blockEntries fuel c.column c
      return (.map entries, c)
    else lastLeaf indent c

def blockItems : (fuel column : Nat) → Cursor → Option (List Yaml × Cursor)
  | 0, _, _ => none
  | fuel + 1, column, c => do
    let next := (c.advance 1).skip false false
    let (item, next) ←
      if next.isEnd || (c.line < next.line && next.column ≤ column) then some (nothing, next)
      else blockNode fuel (column + 1) next
    if next.isEnd || next.column < column then return ([item], next)
    else if next.column == column then
      if startsItem next.rest then
        let (items, last) ← blockItems fuel column next
        return (item :: items, last)
      else return ([item], next)
    else none

/-- The value after the colon of a block mapping at a column. A sequence may begin at the column
of the mapping. -/
def blockValue : (fuel column : Nat) → Cursor → Option (Yaml × Cursor)
  | 0, _, _ => none
  | fuel + 1, column, c =>
    let next := c.skip false true
    if next.isEnd then some (nothing, next)
    else if next.line == c.line then lastLeaf (column + 1) next
    else if column < next.column then blockNode fuel (column + 1) next
    else if next.column == column && startsItem next.rest then blockNode fuel (column + 1) next
    else some (nothing, next)

def blockEntries : (fuel column : Nat) → Cursor → Option (List (Yaml × Yaml) × Cursor)
  | 0, _, _ => none
  | fuel + 1, column, c => do
    let (key, after) ← blockKey c
    let (value, next) ← blockValue fuel column after
    if next.isEnd || next.column < column then return ([(key, value)], next)
    else if next.column == column then
      let (entries, last) ← blockEntries fuel column next
      return ((key, value) :: entries, last)
    else none

end

def joinBreaks : List Char → List Char
  | '\r' :: '\n' :: rest => '\n' :: joinBreaks rest
  | '\r' :: rest => '\n' :: joinBreaks rest
  | '\u0085' :: rest => '\n' :: joinBreaks rest
  | c :: rest => c :: joinBreaks rest
  | [] => []

def isPrintable (c : Char) : Bool :=
  let n := c.toNat
  n == 9 || n == 10 || (0x20 ≤ n && n ≤ 0x7e) || (0xa0 ≤ n && n ≤ 0xfffd && n ≠ 0xfeff) ||
    0x10000 ≤ n

/-- A document: a value that may begin after a mark. On the line of the mark only a leaf can
begin. -/
def document (c : Cursor) : Option (Yaml × Cursor) :=
  let first := c.skip false false
  let marked := first.column == 0 && isRule '-' first.rest
  let start := if marked then (first.advance 3).skip false true else first
  if start.isEnd then some (nothing, start)
  else if marked && start.line == first.line then lastLeaf 0 start
  else blockNode (2 * c.rest.length + 2) 0 start

/-- Whether nothing follows but marks that end a document. `fuel` bounds their number. -/
def endsDocument : (fuel : Nat) → Cursor → Bool
  | 0, c => c.rest.isEmpty
  | fuel + 1, c =>
    c.rest.isEmpty ||
      (c.column == 0 && isRule '.' c.rest && endsDocument fuel ((c.advance 3).skip false true))

/-- The document of a text; a text without one is nothing. -/
def parse? (s : String) : Option Yaml :=
  let cs := joinBreaks (match s.toList with
    | '\ufeff' :: rest => rest
    | cs => cs)
  if !cs.all isPrintable then none
  else do
    let (v, last) ← document ⟨cs, 0, 0⟩
    if endsDocument cs.length last then return v else none

end ResourceTemplate.Yaml
