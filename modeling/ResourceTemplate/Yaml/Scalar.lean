import ResourceTemplate.Yaml.Basic

namespace ResourceTemplate.Yaml

structure Cursor where
  rest : List Char
  line : Nat
  column : Nat

namespace Cursor

def advance : Nat → Cursor → Cursor
  | 0, c => c
  | n + 1, c =>
    match c.rest with
    | [] => c
    | '\n' :: rest => advance n ⟨rest, c.line + 1, 0⟩
    | _ :: rest => advance n ⟨rest, c.line, c.column + 1⟩

def atRest (c : Cursor) (rest : List Char) : Cursor := c.advance (c.rest.length - rest.length)

/-- Skip blanks, comments and breaks. Where tabs are not allowed they stay; in block context none
are allowed at the start of a line. -/
def skipFrom (flow : Bool) : (comment tabs : Bool) → (line column : Nat) → List Char → Cursor
  | _, _, line, column, [] => ⟨[], line, column⟩
  | comment, tabs, line, column, ch :: rest =>
    if ch == '\n' then skipFrom flow false flow (line + 1) 0 rest
    else if comment || ch == ' ' || (ch == '\t' && tabs) then
      skipFrom flow comment tabs line (column + 1) rest
    else if ch == '#' then skipFrom flow true tabs line (column + 1) rest
    else ⟨ch :: rest, line, column⟩

def skip (flow tabs : Bool) (c : Cursor) : Cursor :=
  skipFrom flow false (flow || tabs) c.line c.column c.rest

end Cursor

def isGap : List Char → Bool
  | [] => true
  | c :: _ => c == ' ' || c == '\t' || c == '\n'

def isRule (mark : Char) : List Char → Bool
  | a :: b :: c :: rest => a == mark && b == mark && c == mark && isGap rest
  | _ => false

def isMarker (cs : List Char) : Bool := isRule '-' cs || isRule '.' cs

def Cursor.isEnd (c : Cursor) : Bool := c.rest.isEmpty || (c.column == 0 && isMarker c.rest)

def flowMarks : List Char := [',', '[', ']', '\x7b', '\x7d']

def isFlowMark (c : Char) : Bool := flowMarks.contains c

/-- The characters that begin no plain scalar, unless two of them are followed by another. -/
def indicators : List Char :=
  [',', '[', ']', '\x7b', '\x7d', '#', '&', '*', '!', '|', '>', '\'', '"', '%', '@', '\x60']

def startsPlain (flow : Bool) : List Char → Bool
  | [] => false
  | '-' :: rest => !isGap rest
  | '?' :: rest => !flow && !isGap rest
  | ':' :: rest => !flow && !isGap rest
  | c :: rest => !isGap (c :: rest) && !indicators.contains c

/-- The text of a plain scalar on one line, and what follows it. `blanks` are those met since its
last character, reversed. -/
def plainLine (flow : Bool) (blanks : List Char) : List Char → Option (List Char × List Char)
  | [] => some ([], [])
  | c :: rest =>
    if c == ' ' || c == '\t' then plainLine flow (c :: blanks) rest
    else if c == '\n' || (c == '#' && !blanks.isEmpty) || (c == ':' && isGap rest) ||
        (flow && isFlowMark c) then some ([], c :: rest)
    else if flow && c == ':' && (rest.head?.any fun d => d == '?' || isFlowMark d) then none
    else (plainLine flow [] rest).map fun (text, rest) => (blanks.reverse ++ c :: text, rest)

def fold (breaks : Nat) : List Char :=
  if breaks == 1 then [' '] else List.replicate (breaks - 1) '\n'

/-- Skip blanks and breaks between the lines of a plain scalar and count the breaks. A tab left of
the indentation is refused. -/
def between (indent : Nat) : (breaks line column : Nat) → List Char → Option (Nat × Cursor)
  | breaks, line, column, [] => some (breaks, ⟨[], line, column⟩)
  | breaks, line, column, c :: rest =>
    if c == '\n' then between indent (breaks + 1) (line + 1) 0 rest
    else if c == ' ' then between indent breaks line (column + 1) rest
    else if c == '\t' then
      if 0 < breaks && column < indent then none else between indent breaks line (column + 1) rest
    else some (breaks, ⟨c :: rest, line, column⟩)

/-- The further lines of a plain scalar, each folded to the one before, and the cursor at the end of
the last. In block context they are indented. `fuel` bounds their number. -/
def plainMore (flow : Bool) (indent : Nat) : (fuel : Nat) → Cursor → Option (List Char × Cursor)
  | 0, c => some ([], c)
  | fuel + 1, c =>
    match c.rest with
    | '\n' :: _ => do
      let (breaks, next) ← between indent 0 c.line c.column c.rest
      if next.isEnd || next.rest.head? == some '#' || (!flow && next.column < indent) then
        return ([], c)
      let (text, rest) ← plainLine flow [] next.rest
      if text.isEmpty then return ([], c)
      let (more, last) ← plainMore flow indent fuel (next.atRest rest)
      return (fold breaks ++ text ++ more, last)
    | _ => some ([], c)

def plainScalar (flow : Bool) (indent : Nat) (c : Cursor) : Option (Yaml × Cursor) := do
  let (text, rest) ← plainLine flow [] c.rest
  let (more, last) ← plainMore flow indent c.rest.length (c.atRest rest)
  return (.plain (String.ofList (text ++ more)), last)

def charOf? (n : Nat) : Option Char := if n.isValidChar then some (Char.ofNat n) else none

def hexEscape (width : Nat) (cs : List Char) : Option (List Char × List Char) :=
  if cs.length < width then none
  else do
    let c ← charOf? (← natOf? 16 (cs.take width))
    return ([c], cs.drop width)

def escapes : List (Char × Char) :=
  [('0', '\x00'), ('a', '\x07'), ('b', '\x08'), ('t', '\t'), ('\t', '\t'), ('n', '\n'),
   ('v', '\x0b'), ('f', '\x0c'), ('r', '\r'), ('e', '\x1b'), (' ', ' '), ('"', '"'), ('/', '/'),
   ('\\', '\\'), ('N', '\u0085'), ('_', '\u00a0'), ('L', '\u2028'), ('P', '\u2029')]

def escaped : List Char → Option (List Char × List Char)
  | 'x' :: rest => hexEscape 2 rest
  | 'u' :: rest => hexEscape 4 rest
  | 'U' :: rest => hexEscape 8 rest
  | c :: rest => (escapes.lookup c).map fun d => ([d], rest)
  | [] => none

def whiteRun : List Char → List Char × Nat × List Char
  | [] => ([], 0, [])
  | c :: rest =>
    if c == ' ' || c == '\t' || c == '\n' then
      let (run, breaks, rest) := whiteRun rest
      (c :: run, (if c == '\n' then breaks + 1 else breaks), rest)
    else ([], 0, c :: rest)

def breaksDocument (run rest : List Char) : Bool := run.getLast? == some '\n' && isMarker rest

/-- The text up to the closing quote, and what follows that. `fuel` bounds the number of
characters. -/
def quotedText (quote : Char) : (fuel : Nat) → List Char → Option (List Char × List Char)
  | 0, _ => none
  | _ + 1, [] => none
  | fuel + 1, c :: rest =>
    if c == quote then
      if quote == '\'' && rest.head? == some '\'' then
        (quotedText quote fuel (rest.drop 1)).map fun (text, rest) => ('\'' :: text, rest)
      else some ([], rest)
    else if c == '\\' && quote == '"' then
      match rest with
      | '\n' :: rest =>
        let (run, breaks, rest) := whiteRun rest
        if breaksDocument ('\n' :: run) rest then none
        else
          (quotedText quote fuel rest).map fun (text, rest) =>
            (List.replicate breaks '\n' ++ text, rest)
      | rest => do
        let (chars, rest) ← escaped rest
        let (text, rest) ← quotedText quote fuel rest
        return (chars ++ text, rest)
    else if isGap (c :: rest) then
      let (run, breaks, rest) := whiteRun (c :: rest)
      if breaksDocument run rest then none
      else
        (quotedText quote fuel rest).map fun (text, rest) =>
          ((if breaks == 0 then run else fold breaks) ++ text, rest)
    else (quotedText quote fuel rest).map fun (text, rest) => (c :: text, rest)

def quotedScalar (c : Cursor) : Option (Yaml × Cursor) :=
  match c.rest with
  | quote :: rest => (quotedText quote (rest.length + 1) rest).map fun (text, rest) =>
      (.quoted (String.ofList text), c.atRest rest)
  | [] => none

def startsQuoted (cs : List Char) : Bool := cs.head? == some '\'' || cs.head? == some '"'

end ResourceTemplate.Yaml
