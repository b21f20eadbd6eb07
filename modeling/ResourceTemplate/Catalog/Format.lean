import ResourceTemplate.Catalog.Logic
import ResourceTemplate.Text.Character

namespace ResourceTemplate.Catalog.Format

def maxPadded : Nat := 16384

def checkPadded (function what : String) (length : Nat) : Except ExprError Unit :=
  if maxPadded < length then
    .error (.invalidArgument function (what ++ " must not exceed " ++ Args.count maxPadded))
  else .ok ()

structure Item where
  index : List Char
  alignment : Option (List Char)
  form : Option (List Char)
deriving DecidableEq, Repr

inductive Piece where
  | text (c : Char)
  | item (item : Item)
deriving DecidableEq, Repr

def alignment? (cs : List Char) : Option (List Char × List Char) :=
  let (sign, rest) := match cs with
    | '-' :: r => (['-'], r)
    | r => ([], r)
  let ds := rest.takeWhile Digit.isDecimal
  if ds.isEmpty then none else some (sign ++ ds, rest.dropWhile Digit.isDecimal)

/-- An item after its opening brace, and the number of characters it takes, braces included. -/
def item? (cs : List Char) : Option (Item × Nat) := do
  let index := cs.takeWhile Digit.isDecimal
  let rest := cs.dropWhile Digit.isDecimal
  if index.isEmpty then none
  let (alignment, rest) ← match rest with
    | ',' :: r => (alignment? r).map fun (a, r) => (some a, r)
    | r => some (none, r)
  let (form, rest) := match rest with
    | ':' :: r => (some (r.takeWhile (· != '\x7d')), r.dropWhile (· != '\x7d'))
    | r => (none, r)
  match rest with
  | '\x7d' :: after => return (⟨index, alignment, form⟩, cs.length - after.length + 1)
  | _ => none

/-- The pieces of a template, of which the first `skip` characters belong to a piece that was
read. -/
def pieces : (skip : Nat) → List Char → List Piece
  | _, [] => []
  | skip + 1, _ :: rest => pieces skip rest
  | 0, '\x7b' :: rest =>
    if rest.head? == some '\x7b' then .text '\x7b' :: pieces 1 rest
    else
      match item? rest with
      | some (item, length) => .item item :: pieces (length - 1) rest
      | none => .text '\x7b' :: pieces 0 rest
  | 0, c :: rest =>
    if c == '\x7d' && rest.head? == some '\x7d' then .text c :: pieces 1 rest
    else .text c :: pieces 0 rest

def zeroPadded (width : Nat) (cs : List Char) : List Char :=
  List.replicate (width - cs.length) '0' ++ cs

def grouped (ds : List Char) : List Char :=
  (ds.zipIdx.flatMap fun (c, i) =>
    if 0 < i && (ds.length - i) % 3 == 0 then [',', c] else [c])

def signed (n : Int) (ds : List Char) : List Char := if n < 0 then '-' :: ds else ds

def word (n : Int) : Nat := (n % ((Integer.maxNat64 : Int) + 1)).toNat

/-- The precision after the letter of a form; what is not all digits counts as none. -/
def precision (ds : List Char) : Nat :=
  if !ds.isEmpty && ds.all Integer.isDigit then
    match Integer.natural Integer.maxNat64 ds with
    | .ok n => n
    | .error _ => Integer.maxNat64
  else 0

/-- An integer in a form: decimal, hexadecimal of either case, or grouped. -/
def integer (n : Int) (form : List Char) : Except ExprError (List Char) := do
  match form with
  | [] => return Integer.text n
  | kind :: ds =>
    let width := precision ds
    let known := ['D', 'd', 'X', 'x', 'N', 'n'].contains kind
    if known then checkPadded "format" "precision" width
    match kind.toLower, kind with
    | 'd', _ => return signed n (zeroPadded width (Integer.natText n.natAbs))
    | 'n', _ =>
      let text := signed n (grouped (Integer.natText n.natAbs))
      return if 0 < width then text ++ '.' :: List.replicate width '0' else text
    | _, 'X' => return zeroPadded width ((Nat.toDigits 16 (word n)).map Char.toUpper)
    | _, 'x' => return zeroPadded width (Nat.toDigits 16 (word n))
    | _, _ => return Integer.text n

/-- A value in a form; only integers have forms. -/
def value (v : Json) (form : Option (List Char)) : Except ExprError (List Char) :=
  match form, v.int64? with
  | some (c :: cs), some n => integer n (c :: cs)
  | _, _ => .ok v.display.toList

/-- A text with blanks up to a width: before it if the width is positive, after it if negative. -/
def align (text : List Char) (width : Int) : Except ExprError (List Char) := do
  checkPadded "format" "alignment" width.natAbs
  let fill := List.replicate (width.natAbs - text.length) ' '
  return if 0 < width then fill ++ text else text ++ fill

def render (values : List Json) (item : Item) : Except ExprError (List Char) := do
  let index ← match Integer.natural Integer.maxNat64 item.index with
    | .ok i => pure i
    | .error _ => throw (.invalidArgument "format" "format item index is too large")
  match values[index]? with
  | none =>
    throw (.invalidArgument "format" ("format item \x7b" ++ Args.count index ++
      "\x7d has no matching argument"))
  | some v =>
    let text ← value v item.form
    let width ← match item.alignment with
      | none => pure 0
      | some ds =>
        match Integer.int64 ds with
        | .ok w => pure w
        | .error _ => throw (.invalidArgument "format" "alignment is too large")
    align text width

def renderAll (values : List Json) : List Piece → Except ExprError (List Char)
  | [] => .ok []
  | .text c :: rest => (renderAll values rest).map (c :: ·)
  | .item item :: rest => do
    let text ← render values item
    return text ++ (← renderAll values rest)

def format (a : Args) : Except ExprError Json := do
  a.expect 1 none
  let template ← a.string 0
  return .str (String.ofList (← renderAll a.values.tail (pieces 0 template.toList)))

end ResourceTemplate.Catalog.Format
