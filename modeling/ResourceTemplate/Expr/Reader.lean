import ResourceTemplate.Expr.Basic
import ResourceTemplate.Text.Search

/-!
Reading of expressions from template strings.

```text
bracketed := '[' blanks expr blanks ']'
expr      := primary (blanks accessor)*
primary   := string | integer | call | keyword
call      := ident ('.' ident)? blanks '(' blanks (expr (blanks ',' blanks expr)*)? blanks ')'
accessor  := '.' blanks ident | '[' blanks expr blanks ']'
keyword   := 'true' | 'false' | 'null', in any case of letters
```

The first characters of a text decide which rule applies, so a rule that has begun is never taken
back. A syntax error names what is missing and the byte offset where it should stand.
-/

namespace ResourceTemplate.Expr

inductive Expected where
  | expression
  | propertyName
  | closingIndexBracket
  | functionCall
  | closingParenthesis
  | closingQuote
  | closingBracket
deriving DecidableEq, Repr

def Expected.text : Expected → String
  | .expression => "expression"
  | .propertyName => "property name"
  | .closingIndexBracket => "closing index bracket"
  | .functionCall => "function call"
  | .closingParenthesis => "closing parenthesis"
  | .closingQuote => "closing quote"
  | .closingBracket => "closing bracket"

inductive SyntaxCause where
  | expected (what : Expected)
  | noOpeningBracket
  /-- Text follows the closing bracket; its first characters are quoted. -/
  | trailing (near : String)
  | incomplete
deriving DecidableEq, Repr

def SyntaxCause.message : SyntaxCause → String
  | .expected what => "expected " ++ what.text
  | .noOpeningBracket => "expected '['"
  | .trailing near => "unexpected input near '" ++ near ++ "'"
  | .incomplete => "incomplete expression"

structure SyntaxError where
  position : Nat
  cause : SyntaxCause
deriving DecidableEq, Repr

structure Cursor where
  offset : Nat
  rest : List Char

namespace Cursor

def past (c : Cursor) (taken : List Char) (rest : List Char) : Cursor :=
  ⟨c.offset + Text.byteLength taken, rest⟩

/-- The longest run of characters of a class, and the cursor after it. -/
def run (p : Char → Bool) (c : Cursor) : List Char × Cursor :=
  (c.rest.takeWhile p, c.past (c.rest.takeWhile p) (c.rest.dropWhile p))

def isBlank (c : Char) : Bool := c == ' ' || c == '\t' || c == '\r' || c == '\n'

def skipBlanks (c : Cursor) : Cursor := (c.run isBlank).2

def eat? (ch : Char) (c : Cursor) : Option Cursor :=
  match c.rest with
  | x :: rest => if x == ch then some (c.past [x] rest) else none
  | [] => none

def fail {α : Type} (c : Cursor) (what : Expected) : Except SyntaxError α :=
  .error ⟨c.offset, .expected what⟩

end Cursor

def isDigit (c : Char) : Bool := '0' ≤ c && c ≤ '9'

def isIdentStart (c : Char) : Bool :=
  ('a' ≤ c && c ≤ 'z') || ('A' ≤ c && c ≤ 'Z') || c == '_' || c == '$'

def isIdentRest (c : Char) : Bool := isIdentStart c || isDigit c

def ident? (c : Cursor) : Option (String × Cursor) :=
  match c.rest with
  | x :: rest =>
    if isIdentStart x then
      let (more, after) := (c.past [x] rest).run isIdentRest
      some (String.ofList (x :: more), after)
    else none
  | [] => none

def beginsPrimary : List Char → Bool
  | '-' :: d :: _ => isDigit d
  | x :: _ => x == '\'' || isDigit x || isIdentStart x
  | [] => false

/-- The text of a string literal after its opening quote. `acc` holds the text read before `from`
(reversed), the offset after the last quote that was undone. -/
def quoted (acc : List Char) (start : Nat) (offset : Nat) :
    List Char → Except SyntaxError (String × Cursor)
  | [] => .error ⟨start, .expected .closingQuote⟩
  | '\'' :: '\'' :: rest => quoted ('\'' :: acc) (offset + 2) (offset + 2) rest
  | '\'' :: rest => .ok (String.ofList acc.reverse, ⟨offset + 1, rest⟩)
  | x :: rest => quoted (x :: acc) start (offset + x.utf8Size) rest

def integer (c : Cursor) : Expr × Cursor :=
  let (sign, unsigned) := match c.eat? '-' with
    | some after => (['-'], after)
    | none => ([], c)
  let (digits, after) := unsigned.run isDigit
  (.int (String.ofList (sign ++ digits)) ⟨c.offset, after.offset⟩, after)

def keyword? (word : String) : Option Expr :=
  if Name.same word "true" then some (.bool true)
  else if Name.same word "false" then some (.bool false)
  else if Name.same word "null" then some .null
  else none

/-- The head of a call: namespace, name and the cursor at the opening parenthesis. A namespace
counts only where a parenthesis follows the second name. -/
def callHead? (first : String) (afterFirst : Cursor) : Option (Option String × String × Cursor) :=
  let qualified := do
    let afterDot ← afterFirst.eat? '.'
    let (second, afterSecond) ← ident? afterDot
    let at? := afterSecond.skipBlanks
    let _ ← at?.eat? '('
    return (some first, second, at?)
  match qualified with
  | some head => some head
  | none =>
    let plain := afterFirst.skipBlanks
    (plain.eat? '(').map fun _ => (none, first, plain)

mutual

/-- An expression at the cursor. `fuel` bounds the number of rules entered. -/
def expression : (fuel : Nat) → Cursor → Except SyntaxError (Expr × Cursor)
  | 0, c => .error ⟨c.offset, .incomplete⟩
  | fuel + 1, c => do
    let (e, after) ← primary fuel c
    accessors fuel c.offset e after

def accessors : (fuel : Nat) → (start : Nat) → Expr → Cursor → Except SyntaxError (Expr × Cursor)
  | 0, _, _, c => .error ⟨c.offset, .incomplete⟩
  | fuel + 1, start, e, c =>
    let here := c.skipBlanks
    match here.eat? '.' with
    | some afterDot =>
      let atName := afterDot.skipBlanks
      match ident? atName with
      | none => atName.fail .propertyName
      | some (name, after) => accessors fuel start (.property e name ⟨start, after.offset⟩) after
    | none =>
      match here.eat? '[' with
      | none => .ok (e, c)
      | some afterOpen => do
        let (i, afterIndex) ← expression fuel afterOpen.skipBlanks
        let atClose := afterIndex.skipBlanks
        match atClose.eat? ']' with
        | none => atClose.fail .closingIndexBracket
        | some after => accessors fuel start (.index e i ⟨start, after.offset⟩) after

def primary : (fuel : Nat) → Cursor → Except SyntaxError (Expr × Cursor)
  | 0, c => .error ⟨c.offset, .incomplete⟩
  | fuel + 1, c =>
    if !beginsPrimary c.rest then c.fail .expression
    else
      match c.eat? '\'' with
      | some afterQuote => do
        let (text, after) ← quoted [] afterQuote.offset afterQuote.offset afterQuote.rest
        return (.str text, after)
      | none =>
        match ident? c with
        | none => .ok (integer c)
        | some (word, afterWord) =>
          match callHead? word afterWord with
          | none =>
            match keyword? word with
            | some e => .ok (e, afterWord)
            | none => c.fail .functionCall
          | some (ns, name, atOpen) => do
            let atArgs := (atOpen.past ['('] (atOpen.rest.drop 1)).skipBlanks
            let (args, afterArgs) ←
              if beginsPrimary atArgs.rest then arguments fuel atArgs else pure ([], atArgs)
            let atClose := afterArgs.skipBlanks
            match atClose.eat? ')' with
            | none => atClose.fail .closingParenthesis
            | some after => return (.call ns name args ⟨c.offset, after.offset⟩, after)

/-- One or more expressions with commas between them. A comma that no expression follows is left
where it stands. -/
def arguments : (fuel : Nat) → Cursor → Except SyntaxError (List Expr × Cursor)
  | 0, c => .error ⟨c.offset, .incomplete⟩
  | fuel + 1, c => do
    let (e, after) ← expression fuel c
    match after.skipBlanks.eat? ',' with
    | none => return ([e], after)
    | some afterComma =>
      let atNext := afterComma.skipBlanks
      if beginsPrimary atNext.rest then
        let (es, last) ← arguments fuel atNext
        return (e :: es, last)
      else return ([e], after)

end

/-- Enough fuel for a text: every character is behind at most three rules. -/
def fuelFor (cs : List Char) : Nat := 3 * cs.length + 3

def parse (s : String) : Except SyntaxError Expr :=
  let start : Cursor := ⟨0, s.toList⟩
  match start.eat? '[' with
  | none => .error ⟨0, .noOpeningBracket⟩
  | some afterOpen => do
    let (e, afterExpr) ← expression (fuelFor s.toList) afterOpen.skipBlanks
    let atClose := afterExpr.skipBlanks
    match atClose.eat? ']' with
    | none => atClose.fail .closingBracket
    | some after =>
      if after.rest.isEmpty then return e
      else .error ⟨after.offset, .trailing (String.ofList (after.rest.take 12))⟩

/-- Whether a string is evaluated: at least three bytes, bracketed, and not opened twice. -/
def isExpression (s : String) : Bool :=
  match s.toList with
  | '[' :: rest =>
    3 ≤ Text.byteLength s.toList && rest.head? != some '[' && rest.getLast? == some ']'
  | _ => false

end Expr

namespace TemplateString

/-- Classify and read a string of a template. A bracket doubled at the start stands for one. -/
def parse (s : String) : Except Expr.SyntaxError TemplateString :=
  if Expr.isExpression s then (Expr.parse s).map .expression
  else
    match s.toList with
    | '[' :: '[' :: rest => .ok (.literal (String.ofList ('[' :: rest)))
    | _ => .ok (.literal s)

end TemplateString
end ResourceTemplate
