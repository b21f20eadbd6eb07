import ResourceTemplate.Uri.Basic

namespace ResourceTemplate.Uri

def isAlpha (c : Char) : Bool := ('a' ≤ c && c ≤ 'z') || ('A' ≤ c && c ≤ 'Z')

def isDrive : List Char → Bool
  | [c, ':'] => isAlpha c
  | _ => false

def isWrittenDrive : List Char → Bool
  | [c, d] => isAlpha c && (d == ':' || d == '|')
  | _ => false

def beginsWithDrive : List Char → Bool
  | c :: d :: rest => isWrittenDrive [c, d] && rest.head?.all ['/', '\\', '?', '#'].contains
  | _ => false

def isSlash (special : Bool) (c : Char) : Bool := c == '/' || (special && c == '\\')

def isDot (p : List Char) : Bool :=
  let p := p.map Char.toLower
  p == ['.'] || p == ['%', '2', 'e']

def isDotDot (p : List Char) : Bool :=
  [['.', '.'], ['.', '%', '2', 'e'], ['%', '2', 'e', '.'], ['%', '2', 'e', '%', '2', 'e']].contains
    (p.map Char.toLower)

def directory (path : List Char) : List Char := (path.reverse.dropWhile (· != '/')).reverse

def lastSegment (path : List Char) : List Char := (path.reverse.takeWhile (· != '/')).reverse

/-- The path without its last segment. The drive letter of a file stays. -/
def pop (file : Bool) (path : List Char) : List Char :=
  if file && isDrive (lastSegment path) then path else directory path

def isBelow (path : List Char) : Bool :=
  path.getLast? == some '/' && path.dropLast.contains '/' &&
    !beginsWithDrive (lastSegment path.dropLast ++ ['/'])

def above (file : Bool) (path : List Char) : List Char :=
  pop file (if isBelow path then path.dropLast else path)

def closed (path : List Char) : List Char :=
  if path.getLast? == some '/' then path else path ++ ['/']

/-- A path, and whether a drive letter was met at its beginning. -/
structure Walk where
  path : List Char
  drive : Bool
deriving DecidableEq, Repr

/-- Walk one segment on. `more` tells whether another follows. -/
def Walk.step (file : Bool) (w : Walk) (segment : List Char) (more : Bool) : Walk :=
  let path := if file && !segment.isEmpty && isDrive (w.path.drop 1) then closed w.path else w.path
  let slash := if more then ['/'] else []
  if isDotDot segment then
    { w with path := if more then closed (above file path) else above file path }
  else if isDot segment then { w with path := closed path }
  else if file && path.length == 1 && isWrittenDrive segment then
    ⟨path ++ segment.take 1 ++ ':' :: slash, true⟩
  else { w with path := path ++ escape inPath segment ++ slash }

def Walk.steps (file : Bool) (w : Walk) : List (List Char) → Walk
  | [] => w
  | [segment] => w.step file segment false
  | segment :: rest => (w.step file segment true).steps file rest

def pieces (ends : Char → Bool) : List Char → List (List Char)
  | [] => [[]]
  | c :: rest =>
    if ends c then [] :: pieces ends rest
    else
      match pieces ends rest with
      | p :: ps => (c :: p) :: ps
      | [] => [[c]]

/-- Follow a written path from another. The path of a file begins with one slash. -/
def follow (special file : Bool) (path written : List Char) : Walk :=
  let w := Walk.steps file ⟨path, false⟩ (pieces (isSlash special) written)
  if file then { w with path := '/' :: w.path.dropWhile (· == '/') } else w

end ResourceTemplate.Uri
