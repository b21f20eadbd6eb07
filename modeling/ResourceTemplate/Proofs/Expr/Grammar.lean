import ResourceTemplate.Expr.Reader

namespace ResourceTemplate.Expr

open Text (byteLength)

namespace Grammar

@[ext]
structure Blanks where
  text : List Char
  blank : text.all Cursor.isBlank = true

/-- A letter, `_` or `$`, then any number of these and of digits. -/
@[ext]
structure Identifier where
  first : Char
  more : List Char
  starts : isIdentStart first = true
  continues : more.all isIdentRest = true

def Identifier.text (n : Identifier) : List Char := n.first :: n.more

def Identifier.name (n : Identifier) : String := String.ofList n.text

/-- Digits, perhaps with a minus sign before them. -/
@[ext]
structure Integer where
  negative : Bool
  first : Char
  more : List Char
  digit : isDigit first = true
  digits : more.all isDigit = true

def Integer.sign (n : Integer) : List Char := if n.negative then ['-'] else []

def Integer.text (n : Integer) : List Char := n.sign ++ n.first :: n.more

inductive Constant where
  | true
  | false
  | null

def Constant.word : Constant → String
  | .true => "true"
  | .false => "false"
  | .null => "null"

def Constant.tree : Constant → Expr
  | .true => .bool Bool.true
  | .false => .bool Bool.false
  | .null => .null

@[ext]
structure Keyword where
  constant : Constant
  text : List Char
  spelled : Name.same (String.ofList text) constant.word = true

/-- The text of a string literal between its quotes: a quote is written twice. -/
def escape (content : List Char) : List Char :=
  content.flatMap fun c => if c = '\'' then ['\'', '\''] else [c]

@[ext]
structure CallHead where
  ns : Option Identifier
  name : Identifier
  before : Blanks

def CallHead.nsText (h : CallHead) : List Char :=
  match h.ns with
  | some ns => ns.text ++ ['.']
  | none => []

def CallHead.text (h : CallHead) : List Char := h.nsText ++ (h.name.text ++ h.before.text)

mutual

inductive Expression where
  | mk (head : Primary) (accessors : Accessors)

inductive Accessors where
  | nil
  | property (before inside : Blanks) (name : Identifier) (more : Accessors)
  | index (before opened : Blanks) (e : Expression) (closed : Blanks) (more : Accessors)

inductive Primary where
  | string (content : List Char)
  | integer (literal : Integer)
  | keyword (word : Keyword)
  | call (head : CallHead) (opened : Blanks) (args : Arguments)

inductive Arguments where
  | none
  | some (items : Items) (closed : Blanks)

inductive Items where
  | last (e : Expression)
  | cons (e : Expression) (before after : Blanks) (more : Items)

end

mutual

def Expression.text : Expression → List Char
  | .mk head accessors => head.text ++ accessors.text

def Accessors.text : Accessors → List Char
  | .nil => []
  | .property before inside name more =>
    before.text ++ '.' :: (inside.text ++ (name.text ++ more.text))
  | .index before opened e closed more =>
    before.text ++ '[' :: (opened.text ++ (e.text ++ (closed.text ++ ']' :: more.text)))

def Primary.text : Primary → List Char
  | .string content => '\'' :: (escape content ++ ['\''])
  | .integer literal => literal.text
  | .keyword word => word.text
  | .call head opened args => head.text ++ '(' :: (opened.text ++ args.text)

def Arguments.text : Arguments → List Char
  | .none => [')']
  | .some items closed => items.text ++ (closed.text ++ [')'])

def Items.text : Items → List Char
  | .last e => e.text
  | .cons e before after more => e.text ++ (before.text ++ ',' :: (after.text ++ more.text))

end

mutual

/-- The tree of an expression that begins at the byte offset `i`. -/
def Expression.tree (i : Nat) : Expression → Expr
  | .mk head accessors => accessors.tree i (i + byteLength head.text) (head.tree i)

/-- The tree `target`, begun at `start`, with the accessors from offset `i` on around it; the last
of them is the outermost. -/
def Accessors.tree (start i : Nat) (target : Expr) : Accessors → Expr
  | .nil => target
  | .property before inside name more =>
    let stop := i + byteLength (before.text ++ '.' :: (inside.text ++ name.text))
    more.tree start stop (.property target name.name ⟨start, stop⟩)
  | .index before opened e closed more =>
    let inner := i + byteLength (before.text ++ '[' :: opened.text)
    let stop := inner + byteLength (e.text ++ (closed.text ++ [']']))
    more.tree start stop (.index target (e.tree inner) ⟨start, stop⟩)

def Primary.tree (i : Nat) : Primary → Expr
  | .string content => .str (String.ofList content)
  | .integer literal =>
    .int (String.ofList literal.text) ⟨i, i + byteLength literal.text⟩
  | .keyword word => word.constant.tree
  | .call head opened args =>
    .call (head.ns.map Identifier.name) head.name.name
      (args.trees (i + byteLength (head.text ++ '(' :: opened.text)))
      ⟨i, i + byteLength (head.text ++ '(' :: (opened.text ++ args.text))⟩

def Arguments.trees (i : Nat) : Arguments → List Expr
  | .none => []
  | .some items _ => items.trees i

def Items.trees (i : Nat) : Items → List Expr
  | .last e => [e.tree i]
  | .cons e before after more =>
    e.tree i :: more.trees (i + byteLength (e.text ++ (before.text ++ ',' :: after.text)))

end

structure Bracketed where
  opened : Blanks
  inside : Expression
  closed : Blanks

def Bracketed.text (d : Bracketed) : List Char :=
  '[' :: (d.opened.text ++ (d.inside.text ++ (d.closed.text ++ [']'])))

def Bracketed.tree (d : Bracketed) : Expr := d.inside.tree (byteLength ('[' :: d.opened.text))

end Grammar
end ResourceTemplate.Expr
