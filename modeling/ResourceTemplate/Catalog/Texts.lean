import ResourceTemplate.Catalog.Format
import ResourceTemplate.Codec.Basic
import ResourceTemplate.Codec.Guid
import ResourceTemplate.Json.Reader
import ResourceTemplate.Text.Case
import ResourceTemplate.Text.Character
import ResourceTemplate.Uri.Reader

namespace ResourceTemplate.Catalog.Texts

def onString (f : String → String) (a : Args) : Except ExprError Json := do
  a.exactly 1
  return .str (f (← a.string 0))

def decoding (function : String) (decode? : String → Option Json) (a : Args) :
    Except ExprError Json := do
  a.exactly 1
  match decode? (← a.string 0) with
  | some v => return v
  | none => throw (.invalidArgument function "not an encoded text")

def dataUriStart : String := "data:text/plain;charset=utf8;base64,"

def dataUri (a : Args) : Except ExprError Json := do
  a.exactly 1
  return .str (dataUriStart ++ Base64.encode (← a.value 0).display)

def dataUriToString (a : Args) : Except ExprError Json := do
  a.exactly 1
  let input ← a.string 0
  let refuse := ExprError.invalidArgument "dataUriToString" "expected a base64 data URI"
  match Text.splitOnce? ";base64,".toList input.toList with
  | some (head, payload) =>
    if !"data:".toList.isPrefixOf head then throw refuse
    match Base64.decode? (String.ofList payload) with
    | some s => return .str s
    | none => throw (.invalidArgument "dataUriToString" "not an encoded text")
  | none => throw refuse

def uri (a : Args) : Except ExprError Json := do
  a.exactly 2
  let base ← a.string 0
  match Uri.parse? none base with
  | none => throw (.invalidArgument "uri" "not an absolute address")
  | some b =>
    match Uri.parse? (some b) (← a.string 1) with
    | some u => return .str (String.ofList u.text)
    | none => throw (.invalidArgument "uri" "not a reference")

def compareEnd (holds : List Char → List Char → Bool) (a : Args) : Except ExprError Json := do
  a.exactly 2
  let text := (Case.lower (← a.string 0)).toList
  return .bool (holds (Case.lower (← a.string 1)).toList text)

def padLeft (a : Args) : Except ExprError Json := do
  a.expect 2 (some 3)
  let v ← a.value 0
  let refuse := ExprError.mismatch "argument 1 of 'padLeft'" "string or int" v
  let text ← match v, v.int64? with
    | .str s, _ => pure s.toList
    | _, some n => pure (Integer.text n)
    | _, none => throw refuse
  let total ← a.int 1
  if total < 0 then throw (.invalidArgument "padLeft" "totalLength must not be negative")
  Format.checkPadded "padLeft" "totalLength" total.toNat
  let pad ←
    if a.values.length < 3 then pure ' '
    else do
      match (← a.string 2).toList with
      | [c] => pure c
      | _ => throw (.invalidArgument "padLeft" "paddingCharacter must be a single character")
  return .str (String.ofList (List.replicate (total.toNat - text.length) pad ++ text))

def replace (a : Args) : Except ExprError Json := do
  a.exactly 3
  let s ← a.string 0
  let old ← a.string 1
  let new ← a.string 2
  return .str (String.ofList (Text.replace old.toList new.toList s.toList))

def cut (parts : List (List Char)) (separator : List Char) : List (List Char) :=
  parts.flatMap (Text.splitOn separator)

def split (a : Args) : Except ExprError Json := do
  a.exactly 2
  let input ← a.string 0
  let separators ← match ← a.value 1 with
    | .str d => pure [d]
    | .arr ds => pure (ds.map Json.display)
    | v => throw (.mismatch "argument 2 of 'split'" "string or array" v)
  let parts := (separators.map String.toList).foldl cut [input.toList]
  return .arr (parts.map fun p => .str (String.ofList p))

def string (a : Args) : Except ExprError Json := do
  a.exactly 1
  return .str (← a.value 0).display

def substring (a : Args) : Except ExprError Json := do
  a.expect 2 (some 3)
  let s := (← a.string 0).toList
  let start ← a.int 1
  let count ← if a.values.length < 3 then pure (Integer.wrap64 (s.length - start)) else a.int 2
  match Number.inRange? (start + count) with
  | none => throw (.numericOverflow "substring")
  | some stop =>
    if start < 0 || count < 0 || (s.length : Int) < stop then
      throw (.invalidArgument "substring"
        ("start " ++ String.ofList (Integer.text start) ++ " and length " ++
          String.ofList (Integer.text count) ++ " fall outside a string of length " ++
          Args.count s.length))
    return .str (String.ofList ((s.drop start.toNat).take count.toNat))

def ofTexts (f : List String → String) (a : Args) : Except ExprError Json := do
  a.expect 1 none
  return .str (f (← a.strings))

def functions : List (String × Pure) :=
  [("base64", onString Base64.encode),
   ("base64tojson", decoding "base64ToJson" fun s => (Base64.decode? s).bind Json.parse?),
   ("base64tostring", decoding "base64ToString" fun s => (Base64.decode? s).map .str),
   ("datauri", dataUri),
   ("datauritostring", dataUriToString),
   ("endswith", compareEnd List.isSuffixOf),
   ("format", Format.format),
   ("guid", ofTexts Guid.ofTexts),
   ("padleft", padLeft),
   ("replace", replace),
   ("split", split),
   ("startswith", compareEnd List.isPrefixOf),
   ("string", string),
   ("substring", substring),
   ("tolower", onString Case.lower),
   ("toupper", onString Case.upper),
   ("trim", onString Blank.trim),
   ("uniquestring", ofTexts Guid.shortHash),
   ("uri", uri),
   ("uricomponent", onString Percent.encode),
   ("uricomponenttostring",
     decoding "uriComponentToString" fun s => (Percent.decode? s).map .str)]

end ResourceTemplate.Catalog.Texts
