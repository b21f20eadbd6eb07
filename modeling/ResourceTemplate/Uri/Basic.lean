import ResourceTemplate.Codec.Basic
import ResourceTemplate.Text.Integer
import ResourceTemplate.Text.Search

namespace ResourceTemplate

structure Uri.Authority where
  user : List Char
  password : Option (List Char)
  host : List Char
  port : Option Nat
deriving DecidableEq, Repr

/-- A path: a text that is empty or begins with a slash, or one without structure. -/
inductive Uri.Path where
  | rooted (text : List Char)
  | plain (text : List Char)
deriving DecidableEq, Repr

structure Uri where
  scheme : List Char
  authority : Option Uri.Authority
  path : Uri.Path
  query : Option (List Char)
  fragment : Option (List Char)
deriving DecidableEq, Repr

namespace Uri

/-- The schemes whose addresses always have an authority or a file path, with their usual ports. -/
def specialSchemes : List (List Char × Option Nat) :=
  [("http".toList, some 80), ("https".toList, some 443), ("ws".toList, some 80),
   ("wss".toList, some 443), ("ftp".toList, some 21), ("file".toList, none)]

def isSpecial (scheme : List Char) : Bool := specialSchemes.any fun s => s.1 == scheme

def defaultPort? (scheme : List Char) : Option Nat := (specialSchemes.lookup scheme).join

def isFile (scheme : List Char) : Bool := scheme == "file".toList

def Authority.credentials (a : Authority) : List Char :=
  match a.user, a.password with
  | [], none => []
  | user, none => user ++ ['@']
  | user, some password => user ++ ':' :: password ++ ['@']

def Authority.text (a : Authority) : List Char :=
  a.credentials ++ a.host ++
    (match a.port with
      | some p => ':' :: Integer.natText p
      | none => [])

def Path.text : Path → List Char
  | .rooted text => text
  | .plain text => text

/-- The written form. Without an authority, a path that begins with two slashes is set off by
`/.`. -/
def text (u : Uri) : List Char :=
  let authority := match u.authority with
    | some a => '/' :: '/' :: a.text
    | none =>
      match u.path.text with
      | '/' :: '/' :: _ => ['/', '.']
      | _ => []
  let query := match u.query with
    | some q => '?' :: q
    | none => []
  let fragment := match u.fragment with
    | some f => '#' :: f
    | none => []
  u.scheme ++ ':' :: authority ++ u.path.text ++ query ++ fragment

/-- Whether a byte is escaped everywhere: control characters and bytes beyond ASCII. -/
def isControlByte (b : UInt8) : Bool := b.toNat < 0x20 || 0x7E < b.toNat

def escape (special : List Char) (cs : List Char) : List Char :=
  (Utf8.encode (String.ofList cs)).flatMap fun b =>
    if isControlByte b || special.any fun c => c.toNat == b.toNat then Percent.escape b
    else [Char.ofNat b.toNat]

def inFragment : List Char := [' ', '"', '<', '>', '\x60']
def inPath : List Char := inFragment ++ ['#', '?', '\x7b', '\x7d']
def inUser : List Char := inPath ++ ['/', ':', ';', '=', '@', '[', '\\', ']', '^', '|']
def inQuery : List Char := [' ', '"', '#', '<', '>']
def inSpecialQuery : List Char := inQuery ++ ['\'']

end Uri
end ResourceTemplate
