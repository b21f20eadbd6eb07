import ResourceTemplate.Json.Basic
import ResourceTemplate.Number.Shortest
import ResourceTemplate.Text.Integer

namespace ResourceTemplate.Json

/-- How doubles are written: positionally while the exponent of the first digit is in
`-5 ≤ e < 16`, with at least one place after the point, else in exponent notation with a sign. -/
structure FloatLayout where
  leastPositional : Int
  leastExponential : Int

def FloatLayout.standard : FloatLayout := ⟨-5, 16⟩

def decimalText (layout : FloatLayout) (d : Shortest.Decimal) : List Char :=
  let ds := Integer.natText d.digits
  let order : Int := d.exponent + ds.length - 1
  if layout.leastPositional ≤ order ∧ order < layout.leastExponential then
    if 0 ≤ d.exponent then ds ++ List.replicate d.exponent.toNat '0' ++ ['.', '0']
    else if 0 ≤ order then
      ds.take (order.toNat + 1) ++ '.' :: ds.drop (order.toNat + 1)
    else '0' :: '.' :: List.replicate (-order - 1).toNat '0' ++ ds
  else
    let exponent := 'e' :: (if order < 0 then '-' else '+') :: Integer.natText order.natAbs
    match ds with
    | [c] => c :: exponent
    | c :: rest => c :: '.' :: rest ++ exponent
    | [] => exponent

def floatText (x : Binary64) : List Char :=
  let text := if x.mantissa == 0 then ['0', '.', '0']
    else decimalText FloatLayout.standard (Shortest.decimal x)
  if x.negative then '-' :: text else text

def numberText : Number → List Char
  | .int n => Integer.text n
  | .float x => floatText x

def hexDigit (n : Nat) : Char := Nat.digitChar n

def escape (c : Char) : List Char :=
  if c == '"' then ['\\', '"']
  else if c == '\\' then ['\\', '\\']
  else if c == '\x08' then ['\\', 'b']
  else if c == '\x0c' then ['\\', 'f']
  else if c == '\n' then ['\\', 'n']
  else if c == '\r' then ['\\', 'r']
  else if c == '\t' then ['\\', 't']
  else if c.toNat < 0x20 then
    ['\\', 'u', '0', '0', hexDigit (c.toNat / 16), hexDigit (c.toNat % 16)]
  else [c]

def quoted (s : String) : List Char := '"' :: s.toList.flatMap escape ++ ['"']

mutual

def render : Json → List Char
  | .null => ['n', 'u', 'l', 'l']
  | .bool true => ['t', 'r', 'u', 'e']
  | .bool false => ['f', 'a', 'l', 's', 'e']
  | .num n => numberText n
  | .str s => quoted s
  | .arr xs => '[' :: renderItems xs ++ [']']
  | .obj es => '\x7b' :: renderEntries es ++ ['\x7d']

def renderItems : List Json → List Char
  | [] => []
  | [x] => render x
  | x :: xs => render x ++ ',' :: renderItems xs

def renderEntries : List (String × Json) → List Char
  | [] => []
  | [(k, v)] => quoted k ++ ':' :: render v
  | (k, v) :: rest => quoted k ++ ':' :: render v ++ ',' :: renderEntries rest

end

def compress (j : Json) : String := String.ofList j.render

/-- The text of a value inside strings: a string is its own text, null has none, booleans are
capitalised, and arrays and objects are their compact text. -/
def display : Json → String
  | .null => ""
  | .bool true => "True"
  | .bool false => "False"
  | .num n => String.ofList (numberText n)
  | .str s => s
  | j => j.compress

end ResourceTemplate.Json
