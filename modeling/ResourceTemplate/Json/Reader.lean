import ResourceTemplate.Json.Basic
import ResourceTemplate.Number.Reader

/-!
Strict JSON texts: the blanks are space, tab, line feed and carriage return, escapes of surrogates
come in pairs, control characters are escaped, and arrays and objects nest at most 127 deep.
Where an object gives a name twice, the first place and the last value count.
-/

namespace ResourceTemplate.Json

def isBlank (c : Char) : Bool := c == ' ' || c == '\t' || c == '\n' || c == '\r'

def skipBlanks (cs : List Char) : List Char := cs.dropWhile isBlank

def hexValue? (c : Char) : Option Nat :=
  if '0' ≤ c && c ≤ '9' then some (c.toNat - '0'.toNat)
  else if 'a' ≤ c && c ≤ 'f' then some (c.toNat - 'a'.toNat + 10)
  else if 'A' ≤ c && c ≤ 'F' then some (c.toNat - 'A'.toNat + 10)
  else none

def hex4? (a b c d : Char) : Option Nat := do
  return (((← hexValue? a) * 16 + (← hexValue? b)) * 16 + (← hexValue? c)) * 16 + (← hexValue? d)

def isHighSurrogate (n : Nat) : Bool := 0xD800 ≤ n && n < 0xDC00
def isLowSurrogate (n : Nat) : Bool := 0xDC00 ≤ n && n < 0xE000

def unescape? (c : Char) : Option Char :=
  match c with
  | '"' => some '"'
  | '\\' => some '\\'
  | '/' => some '/'
  | 'b' => some '\x08'
  | 'f' => some '\x0c'
  | 'n' => some '\n'
  | 'r' => some '\r'
  | 't' => some '\t'
  | _ => none

/-- The characters up to the closing quote, after those of `acc` (reversed), and what follows. -/
def stringBody? (acc : List Char) : List Char → Option (List Char × List Char)
  | [] => none
  | '"' :: rest => some (acc.reverse, rest)
  | '\\' :: 'u' :: a :: b :: c :: d :: rest =>
    match hex4? a b c d with
    | none => none
    | some n =>
      if isLowSurrogate n then none
      else if isHighSurrogate n then
        match rest with
        | '\\' :: 'u' :: a :: b :: c :: d :: rest =>
          match hex4? a b c d with
          | none => none
          | some m =>
            if isLowSurrogate m then
              stringBody? (Char.ofNat (0x10000 + (n - 0xD800) * 0x400 + (m - 0xDC00)) :: acc) rest
            else none
        | _ => none
      else stringBody? (Char.ofNat n :: acc) rest
  | '\\' :: c :: rest =>
    match unescape? c with
    | some e => stringBody? (e :: acc) rest
    | none => none
  | c :: rest => if c.toNat < 0x20 || c == '\\' then none else stringBody? (c :: acc) rest

def string? : List Char → Option (String × List Char)
  | '"' :: rest => (stringBody? [] rest).map fun (cs, rest) => (String.ofList cs, rest)
  | _ => none

/-- Items separated by commas up to `close`, at least one. `fuel` bounds their number. -/
def separated? {α : Type} (item? : List Char → Option (α × List Char)) (close : Char) :
    Nat → List Char → Option (List α × List Char)
  | 0, _ => none
  | fuel + 1, cs =>
    match item? cs with
    | none => none
    | some (x, rest) =>
      match skipBlanks rest with
      | c :: rest =>
        if c == close then some ([x], rest)
        else if c == ',' then
          match separated? item? close fuel rest with
          | some (xs, rest) => some (x :: xs, rest)
          | none => none
        else none
      | [] => none

/-- Items separated by commas up to `close`, possibly none. -/
def group? {α : Type} (item? : List Char → Option (α × List Char)) (close : Char)
    (cs : List Char) : Option (List α × List Char) :=
  match skipBlanks cs with
  | c :: rest => if c == close then some ([], rest) else separated? item? close cs.length cs
  | [] => none

def pair? (value? : List Char → Option (Json × List Char)) (cs : List Char) :
    Option ((String × Json) × List Char) :=
  match string? (skipBlanks cs) with
  | none => none
  | some (key, rest) =>
    match skipBlanks rest with
    | ':' :: rest => (value? rest).map fun (v, rest) => ((key, v), rest)
    | _ => none

/-- A value at the start of a text, at most `depth` levels deep. `close` makes the entries of an
object from those written. -/
def value? (close : List (String × Json) → Entries Json) :
    (depth : Nat) → List Char → Option (Json × List Char)
  | depth, cs =>
    match skipBlanks cs with
    | 'n' :: 'u' :: 'l' :: 'l' :: rest => some (.null, rest)
    | 't' :: 'r' :: 'u' :: 'e' :: rest => some (.bool true, rest)
    | 'f' :: 'a' :: 'l' :: 's' :: 'e' :: rest => some (.bool false, rest)
    | '"' :: rest => (string? ('"' :: rest)).map fun (s, rest) => (.str s, rest)
    | '[' :: rest =>
      match depth with
      | 0 => none
      | d + 1 => (group? (value? close d) ']' rest).map fun (xs, rest) => (.arr xs, rest)
    | '\x7b' :: rest =>
      match depth with
      | 0 => none
      | d + 1 =>
        (group? (pair? (value? close d)) '\x7d' rest).map fun (es, rest) => (.obj (close es), rest)
    | cs => (Number.read? cs).map fun (n, rest) => (.num n, rest)

def maxDepth : Nat := 127

def parseWith? (close : List (String × Json) → Entries Json) (s : String) : Option Json :=
  match value? close maxDepth s.toList with
  | some (v, rest) => if (skipBlanks rest).isEmpty then some v else none
  | none => none

def parse? (s : String) : Option Json := parseWith? Entries.ofList s

/-- The value of a whole text, each object with its entries as written, repeated names included. -/
def parseWritten? (s : String) : Option Json := parseWith? id s

end ResourceTemplate.Json
