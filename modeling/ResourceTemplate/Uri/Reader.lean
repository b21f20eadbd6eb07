import ResourceTemplate.Uri.Host
import ResourceTemplate.Uri.Path

namespace ResourceTemplate.Uri

/-- The text without blanks and control characters at its ends and without tabs and line ends. -/
def clean (s : String) : List Char :=
  let control (c : Char) : Bool := c.toNat ≤ 0x20
  let trimmed := ((s.toList.dropWhile control).reverse.dropWhile control).reverse
  trimmed.filter fun c => c != '\t' && c != '\n' && c != '\r'

def scheme? (cs : List Char) : Option (List Char × List Char) :=
  match cs with
  | c :: _ =>
    if isAlpha c then
      let ok (c : Char) : Bool :=
        isAlpha c || Integer.isDigit c || c == '+' || c == '-' || c == '.'
      match cs.dropWhile ok with
      | ':' :: rest => some ((cs.takeWhile ok).map Char.toLower, rest)
      | _ => none
    else none
  | [] => none

def tail (special : Bool) (cs : List Char) : Option (List Char) × Option (List Char) :=
  let body := cs.takeWhile (· != '#')
  let fragment := match cs.dropWhile (· != '#') with
    | '#' :: f => some (escape inFragment f)
    | _ => none
  match body with
  | '?' :: q => (some (escape (if special then inSpecialQuery else inQuery) q), fragment)
  | _ => (none, fragment)

def splitPath (cs : List Char) : List Char × List Char :=
  let ok (c : Char) : Bool := c != '?' && c != '#'
  (cs.takeWhile ok, cs.dropWhile ok)

def endsAuthority (special : Bool) (c : Char) : Bool := isSlash special c || c == '?' || c == '#'

/-- The user and the password before a host, escaped, and what follows the last `@` of the
authority. A lone `@` has a host after it or ends the text. -/
def credentials? (special : Bool) (cs : List Char) :
    Option ((List Char × Option (List Char)) × List Char) :=
  match Text.lastIndexOf? ['@'] (cs.takeWhile fun c => !endsAuthority special c) with
  | none => some (([], none), cs)
  | some 0 =>
    if (cs.drop 1).head?.any (endsAuthority special) then none else some (([], none), cs.drop 1)
  | some i =>
    let written := cs.take i
    let user := escape inUser (written.takeWhile (· != ':'))
    let password := (written.dropWhile (· != ':')).drop 1
    some ((user, if password.isEmpty then none else some (escape inUser password)), cs.drop (i + 1))

/-- The written host at the start of a text: it ends at a colon outside brackets, or with the
authority. -/
def hostText (special : Bool) : (inside : Bool) → List Char → List Char × List Char
  | _, [] => ([], [])
  | inside, c :: rest =>
    if endsAuthority special c || (c == ':' && !inside) then ([], c :: rest)
    else
      let (host, rest) := hostText special (c == '[' || (inside && c != ']')) rest
      (c :: host, rest)

/-- The port after a host; the usual one is left out. -/
def port? (scheme : List Char) (cs : List Char) : Option (Option Nat × List Char) :=
  match cs with
  | ':' :: rest =>
    let ok (c : Char) : Bool := !endsAuthority true c
    let written := rest.takeWhile ok
    let rest := rest.dropWhile ok
    if written.isEmpty then some (none, rest)
    else
      match Integer.natural 65535 written with
      | .ok n => some (if defaultPort? scheme == some n then none else some n, rest)
      | .error _ => none
  | _ => some (none, cs)

/-- The authority at the start of a text, and what follows it. Only where the scheme is not special
the host may be empty, and then it stands alone. -/
def authority? (scheme cs : List Char) : Option (Authority × List Char) := do
  let special := isSpecial scheme
  let ((user, password), rest) ← credentials? special cs
  let (written, rest) := hostText special false rest
  if written.isEmpty then
    if special || rest.head? == some ':' || !user.isEmpty || password.isSome then none
    else return (⟨[], none, [], none⟩, rest)
  else
    let host ← host? special written
    let (port, rest) ← port? scheme rest
    return (⟨user, password, host, port⟩, rest)

def close (scheme : List Char) (authority : Option Authority) (path rest : List Char) : Uri :=
  let (query, fragment) := tail (isSpecial scheme) rest
  ⟨scheme, authority, .rooted path, query, fragment⟩

/-- The path that follows an authority. Only where the scheme is not special it may be empty. -/
def pathAfterHost (special file : Bool) (path : List Char) : Walk :=
  match path with
  | [] => if special then ⟨['/'], false⟩ else ⟨[], false⟩
  | c :: rest =>
    if special && isSlash true c then follow special file ['/'] rest
    else if c == '/' then follow special file [] path
    else follow special file ['/'] path

def withAuthority? (scheme cs : List Char) : Option Uri := do
  let (authority, rest) ← authority? scheme cs
  let (path, rest) := splitPath rest
  return close scheme (some authority) (pathAfterHost (isSpecial scheme) false path).path rest

def fileHost (host : List Char) : Option Authority := some ⟨[], none, host, none⟩

def fileScheme : List Char := ['f', 'i', 'l', 'e']

/-- A file on a host that begins the text. The host may be empty, as is `localhost`; a drive letter
is no host, and the path that begins with one has none. -/
def fileOnHost? (cs : List Char) : Option Uri := do
  let written := cs.takeWhile fun c => !endsAuthority true c
  let after := if isWrittenDrive written then cs else cs.dropWhile fun c => !endsAuthority true c
  let host ← if written.isEmpty || isWrittenDrive written then pure [] else host? true written
  let (path, rest) := splitPath after
  if host.isEmpty || host == ['l', 'o', 'c', 'a', 'l', 'h', 'o', 's', 't'] then
    return close fileScheme (fileHost []) (follow true true ['/'] path).path rest
  else
    let w := pathAfterHost true true path
    return close fileScheme (fileHost (if w.drive then [] else host)) w.path rest

/-- The host and the directory in which a path with one slash at its start is looked up: on the drive
of the base, or else on its host. -/
def fileRoot (base? : Option Uri) (path : List Char) : List Char × List Char :=
  match base? with
  | none => ([], [])
  | some base =>
    let first := (base.path.text.drop 1).takeWhile (· != '/')
    if beginsWithDrive path then ([], [])
    else if isDrive first then ([], '/' :: first)
    else ((base.authority.map Authority.host).getD [], [])

/-- The address with another query or fragment, if the reference begins with one, or without its
fragment. -/
def sameDocument? (base : Uri) (cs : List Char) : Option Uri :=
  let (query, fragment) := tail (isSpecial base.scheme) cs
  match cs with
  | [] => some { base with fragment := none }
  | '?' :: _ => some { base with query, fragment }
  | '#' :: _ => some { base with fragment }
  | _ => none

def fileRelative (base? : Option Uri) (cs : List Char) : Uri :=
  let (path, rest) := splitPath cs
  let absolute := close fileScheme (fileHost []) (follow true true ['/'] path).path rest
  match base? with
  | none => absolute
  | some base =>
    match sameDocument? base cs with
    | some u => u
    | none =>
      if beginsWithDrive cs then absolute
      else
        close fileScheme base.authority (follow true true (pop true base.path.text) path).path rest

def file? (base? : Option Uri) (cs : List Char) : Option Uri :=
  let slashes := (cs.take 2).takeWhile (isSlash true)
  match slashes.length with
  | 0 => some (fileRelative base? cs)
  | 1 =>
    let (host, directory) := fileRoot base? (cs.drop 1)
    let (path, rest) := splitPath cs
    some (close fileScheme (fileHost host) (follow true true directory path).path rest)
  | _ => fileOnHost? (cs.drop 2)

/-- A reference read against a base that is no file and has a path. Two slashes begin an authority;
backslashes count as slashes at the start. -/
def relative? (base : Uri) (cs : List Char) : Option Uri :=
  match sameDocument? base cs with
  | some u => some u
  | none =>
    let special := isSpecial base.scheme
    let slashes := cs.takeWhile (isSlash true)
    if 2 ≤ slashes.length then
      withAuthority? base.scheme (if ['/', '/'].isPrefixOf cs then cs.drop 2 else cs.drop slashes.length)
    else
      let (path, rest) := splitPath cs
      let w :=
        if slashes.length == 1 then follow special false ['/'] (path.drop 1)
        else follow special false (closed (pop false base.path.text)) path
      some (close base.scheme base.authority w.path rest)

def other? (scheme cs : List Char) : Option Uri :=
  let (path, rest) := splitPath cs
  if ['/', '/'].isPrefixOf cs then withAuthority? scheme (cs.drop 2)
  else if path.head? == some '/' then
    some (close scheme none (follow false false ['/'] (path.drop 1)).path rest)
  else
    let (query, fragment) := tail false rest
    some ⟨scheme, none, .plain (escape [] path), query, fragment⟩

/-- An address of a special scheme that is no file. Without two slashes it is relative to a base of
its scheme. -/
def web? (base? : Option Uri) (scheme cs : List Char) : Option Uri :=
  let slashes := (cs.takeWhile (isSlash true)).length
  match base?.filter fun b => slashes < 2 && b.scheme == scheme with
  | some base => relative? base cs
  | none => withAuthority? scheme (cs.drop slashes)

def reference? (base : Uri) (cs : List Char) : Option Uri :=
  match base.path with
  | .plain _ =>
    match cs with
    | '#' :: _ => sameDocument? base cs
    | _ => none
  | .rooted _ => if isFile base.scheme then file? (some base) cs else relative? base cs

def parse? (base? : Option Uri) (s : String) : Option Uri :=
  let cs := clean s
  match scheme? cs with
  | some (scheme, rest) =>
    if isFile scheme then file? (base?.filter fun b => isFile b.scheme) rest
    else if isSpecial scheme then web? base? scheme rest
    else other? scheme rest
  | none => base?.bind fun base => reference? base cs

end ResourceTemplate.Uri
