import ResourceTemplate.Failure
import ResourceTemplate.Json.Reader

namespace ResourceTemplate.Policy

inductive DefinitionKind where
  | unknown
  | definition
  | setDefinition
deriving DecidableEq, Repr, Inhabited

def DefinitionKind.name : DefinitionKind → String
  | .unknown => "Unknown"
  | .definition => "PolicyDefinition"
  | .setDefinition => "PolicySetDefinition"

def classify (resourceType : String) : DefinitionKind :=
  if Name.same resourceType "Microsoft.Authorization/policyDefinitions" then .definition
  else if Name.same resourceType "Microsoft.Authorization/policySetDefinitions" then .setDefinition
  else .unknown

inductive IgnoreReason where
  | duplicate
  | notApplicable
  | configured
deriving DecidableEq, Repr

def IgnoreReason.number : IgnoreReason → Nat
  | .duplicate => 1
  | .notApplicable => 2
  | .configured => 3

def IgnoreReason.ofNumber? : Int → Option IgnoreReason
  | 1 => some .duplicate
  | 2 => some .notApplicable
  | 3 => some .configured
  | _ => none

structure IgnoreEntry where
  ids : List String
  reason : IgnoreReason
  rule : Option String
deriving DecidableEq, Repr

structure Ignored where
  reason : IgnoreReason
  /-- The rules that cover it. -/
  rules : List String
deriving DecidableEq, Repr

structure IgnoreIndex where
  definitions : Entries Ignored := []

namespace IgnoreIndex

def size (x : IgnoreIndex) : Nat := x.definitions.length

def find? (x : IgnoreIndex) (id : String) : Option Ignored := x.definitions.get? (Name.fold id)

def isIgnored (x : IgnoreIndex) (id : String) : Bool := (x.find? id).isSome

def mention (x : IgnoreIndex) (reason : IgnoreReason) (rule : Option String) (id : String) :
    IgnoreIndex :=
  let known := (x.find? id).getD ⟨reason, []⟩
  ⟨x.definitions.insert (Name.fold id) { known with rules := known.rules ++ rule.toList }⟩

def addEntry (x : IgnoreIndex) (e : IgnoreEntry) : IgnoreIndex :=
  e.ids.foldl (fun x id => x.mention e.reason e.rule id) x

def ofEntries (es : List IgnoreEntry) : IgnoreIndex := es.foldl addEntry {}

/-- Add ids that the caller excludes; what is known of an id stays. -/
def withConfigured (x : IgnoreIndex) (ids : List String) : IgnoreIndex :=
  ids.foldl (fun x id => x.mention .configured none id) x

def builtin : IgnoreIndex :=
  let base := "/providers/Microsoft.Authorization/policyDefinitions/"
  ofEntries
    [⟨[base ++ "0961003e-5a0a-4549-abde-af6a37f2724d",
       base ++ "404c3081-a854-4457-ae30-26a93ef643f9"], .duplicate,
      some "Azure.Storage.SecureTransfer"⟩,
     ⟨[base ++ "a4af4a39-4135-47fb-b175-47fbdf85311d"], .duplicate,
      some "Azure.AppService.UseHTTPS"⟩,
     ⟨[base ++ "0a15ec92-a229-4763-bb14-0ea34a568f8d"], .notApplicable, none⟩,
     ⟨[base ++ "e765b5de-1225-4ba3-bd56-1ac6695af988"], .notApplicable, none⟩]

def readIds? : Json → Option (List String)
  | .arr items => items.mapM Json.str?
  | _ => none

def readReason? : Json → Option IgnoreReason
  | .num (.int n) => IgnoreReason.ofNumber? n
  | _ => none

def readRule? : Json → Option (Option String)
  | .null => some none
  | .str s => some (some s)
  | _ => none

def once? (es : List (String × Json)) (key : String) : Option (Option Json) :=
  match es.filter fun e => e.1 == key with
  | [] => some none
  | [e] => some (some e.2)
  | _ => none

/-- An entry: an object of the fields `i`, `r` and optional `v`, or their values in this order. -/
def readEntry? : Json → Option IgnoreEntry
  | .obj es => do
    let ids ← readIds? (← (← once? es "i"))
    let reason ← readReason? (← (← once? es "r"))
    let rule ← match ← once? es "v" with
      | some v => readRule? v
      | none => some none
    return ⟨ids, reason, rule⟩
  | .arr [i, r] => do return ⟨← readIds? i, ← readReason? r, none⟩
  | .arr [i, r, v] => do return ⟨← readIds? i, ← readReason? r, ← readRule? v⟩
  | _ => none

def parse (text : String) : Except ExpandError IgnoreIndex :=
  let entries := match Json.parseWritten? text with
    | some (.arr items) => items.mapM readEntry?
    | _ => none
  match entries with
  | some es => .ok (ofEntries es)
  | none => .error (.malformedTemplate "" "invalid policy ignore data: not an index")

end IgnoreIndex
end ResourceTemplate.Policy
