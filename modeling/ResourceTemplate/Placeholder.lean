import ResourceTemplate.Json.Basic
import ResourceTemplate.Text.Search

namespace ResourceTemplate.Placeholder

def opening : List Char := ['\x7b', '\x7b']
def closing : List Char := ['\x7d', '\x7d']

def braced (inner : String) : String := String.ofList (opening ++ inner.toList ++ closing)

def inner? (s : String) : Option (List Char) :=
  if opening.isPrefixOf s.toList then
    let rest := s.toList.drop 2
    if closing.isSuffixOf rest then some (rest.take (rest.length - 2)) else none
  else none

def resourceRoot : String := "Resource"

def secretListRoot : String := "SecretList"

def resource : Json := .str (braced resourceRoot)

def secretList : Json := .str (braced secretListRoot)

def hasRoot (root : String) (path : List Char) : Bool :=
  root.toList.isPrefixOf path &&
    (match path.drop root.length with
      | [] => true
      | c :: _ => c == '.')

def path? (v : Json) : Option String :=
  match v with
  | .str s =>
    (inner? s).bind fun path =>
      if hasRoot resourceRoot path || hasRoot secretListRoot path then some (String.ofList path)
      else none
  | _ => none

def member? (target : Json) (name : String) : Option Json :=
  (path? target).map fun path => .str (braced (path ++ "." ++ name))

def secret : String := braced "Secret"

def secretReferenceStart : String := "SecretReference:"

def secretReference (name : String) : String := braced (secretReferenceStart ++ name)

/-- Whether a text begins with opening braces and a word and ends with closing braces. -/
def bracedFrom (start : String) (s : String) : Bool :=
  (opening ++ start.toList).isPrefixOf s.toList && closing.isSuffixOf s.toList

def isSecret (s : String) : Bool :=
  s == secret || bracedFrom secretReferenceStart s || bracedFrom secretListRoot s

end ResourceTemplate.Placeholder
