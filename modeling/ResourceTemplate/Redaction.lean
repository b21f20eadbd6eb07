import ResourceTemplate.Failure
import ResourceTemplate.Json.Reader
import ResourceTemplate.Placeholder

namespace ResourceTemplate

inductive PathSegment where
  | key (name : String)
  | index (i : Nat)
  /-- Every item of an array. -/
  | wildcard
deriving DecidableEq, Repr

abbrev PropertyPath := List PathSegment

namespace PropertyPath

def joinKey (path key : String) : String := if path.isEmpty then key else path ++ "." ++ key

def joinIndex (path : String) (i : Nat) : String :=
  path ++ "[" ++ String.ofList (Integer.natText i) ++ "]"

def renderFrom (path : String) : PropertyPath → String
  | [] => path
  | .key name :: rest => renderFrom (joinKey path name) rest
  | .index i :: rest => renderFrom (joinIndex path i) rest
  | .wildcard :: rest => renderFrom (path ++ "[*]") rest

/-- The written form: keys joined by points, indices and wildcards in brackets. -/
def render (path : PropertyPath) : String := renderFrom "" path

/-- The bracketed steps after a key. `fuel` bounds their number. -/
def brackets? : (fuel : Nat) → List Char → Option PropertyPath
  | _, [] => some []
  | 0, _ :: _ => none
  | fuel + 1, c :: rest =>
    if c != '[' then none
    else
      match Text.splitOnce? [']'] rest with
      | none => none
      | some (inner, rest) =>
        if inner == ['*'] then (brackets? fuel rest).map (.wildcard :: ·)
        else
          match Integer.nat64 inner with
          | .ok i => (brackets? fuel rest).map (.index i :: ·)
          | .error _ => none

/-- The steps of a part between points. Only a part that is not the first may lack a key. -/
def part? (isFirst : Bool) (cs : List Char) : Option PropertyPath :=
  let key := cs.takeWhile (· != '[')
  let rest := cs.dropWhile (· != '[')
  if key.isEmpty && isFirst then none
  else
    (brackets? rest.length rest).map fun steps =>
      if key.isEmpty then steps else .key (String.ofList key) :: steps

/-- The steps of parts in turn; nothing but empty parts makes the next part still the first. -/
def parts? (isFirst : Bool) : List (List Char) → Option PropertyPath
  | [] => some []
  | p :: ps => do
    let steps ← part? isFirst p
    return steps ++ (← parts? (isFirst && steps.isEmpty) ps)

def parse (s : String) : Except ExpandError PropertyPath :=
  match parts? true (Text.splitOn ['.'] s.toList) with
  | some path => .ok path
  | none => .error (.malformedTemplate "" ("invalid secret property path '" ++ s ++ "'"))

end PropertyPath

namespace Redaction

abbrev Redacted (α : Type) := α × List String

def onMember (f : Json → Redacted Json) (key : String) :
    List (String × Json) → Redacted (List (String × Json))
  | [] => ([], [])
  | (k, v) :: rest =>
    if k == key then
      let (v, paths) := f v
      ((k, v) :: rest, paths)
    else
      let (rest, paths) := onMember f key rest
      ((k, v) :: rest, paths)

def onItem (f : Json → Redacted Json) : (i : Nat) → List Json → Redacted (List Json)
  | _, [] => ([], [])
  | 0, v :: vs =>
    let (v, paths) := f v
    (v :: vs, paths)
  | i + 1, v :: vs =>
    let (vs, paths) := onItem f i vs
    (v :: vs, paths)

/-- Redact all items of an array; `f` is given each index, `i` counts the items before. -/
def onItems (f : Nat → Json → Redacted Json) : (i : Nat) → List Json → Redacted (List Json)
  | _, [] => ([], [])
  | i, v :: vs =>
    let (v, paths) := f i v
    let (vs, more) := onItems f (i + 1) vs
    (v :: vs, paths ++ more)

/-- Replace the strings at the end of a path that begins at `here`; placeholders stay. -/
def alongPath : PropertyPath → (here : String) → Json → Redacted Json
  | [], here, .str s =>
    if Placeholder.isSecret s then (.str s, []) else (.str Placeholder.secret, [here])
  | .key name :: rest, here, .obj es =>
    match Entries.spelling? es name with
    | none => (.obj es, [])
    | some key =>
      let (es, paths) := onMember (alongPath rest (PropertyPath.joinKey here key)) key es
      (.obj es, paths)
  | .index i :: rest, here, .arr items =>
    let (items, paths) := onItem (alongPath rest (PropertyPath.joinIndex here i)) i items
    (.arr items, paths)
  | .wildcard :: rest, here, .arr items =>
    let (items, paths) :=
      onItems (fun i => alongPath rest (PropertyPath.joinIndex here i)) 0 items
    (.arr items, paths)
  | _, _, v => (v, [])

/-- Follow a path from the members of a body; only a key can begin one. -/
def inBody (path : PropertyPath) (body : Entries Json) : Redacted (Entries Json) :=
  match path with
  | .key _ :: _ =>
    match alongPath path "" (.obj body) with
    | (.obj body, paths) => (body, paths)
    | (_, paths) => (body, paths)
  | _ => (body, [])

/-- Whether a value is a secret: a string or an object equal to one of the secure values. -/
def isSecure (secure : List Json) (v : Json) : Bool :=
  match v with
  | .str s => !Placeholder.isSecret s && secure.any fun x => x.str? == some s
  | .obj _ => secure.any fun x => x.isObject && x.eqUnordered v
  | _ => false

mutual

/-- Replace the topmost secrets of a value that stands at `here`. -/
def ofValue (secure : List Json) (here : String) : Json → Redacted Json
  | .arr items =>
    let (items, paths) := ofItems secure here 0 items
    (.arr items, paths)
  | .obj es =>
    if isSecure secure (.obj es) then (.str Placeholder.secret, [here])
    else
      let (es, paths) := ofMembers secure here es
      (.obj es, paths)
  | v => if isSecure secure v then (.str Placeholder.secret, [here]) else (v, [])

def ofItems (secure : List Json) (here : String) (i : Nat) : List Json → Redacted (List Json)
  | [] => ([], [])
  | v :: vs =>
    let (v, paths) := ofValue secure (PropertyPath.joinIndex here i) v
    let (vs, more) := ofItems secure here (i + 1) vs
    (v :: vs, paths ++ more)

def ofMembers (secure : List Json) (here : String) :
    List (String × Json) → Redacted (List (String × Json))
  | [] => ([], [])
  | (k, v) :: rest =>
    let (v, paths) := ofValue secure (PropertyPath.joinKey here k) v
    let (rest, more) := ofMembers secure here rest
    ((k, v) :: rest, paths ++ more)

end

end Redaction

structure WrittenPath where
  written : String
  path : PropertyPath
  isRead : PropertyPath.parse written = .ok path

def WrittenPath.read (written : String) : Except ExpandError WrittenPath :=
  match h : PropertyPath.parse written with
  | .ok path => .ok ⟨written, path, h⟩
  | .error e => .error e

structure SecretRegistry where
  /-- Under folded types. -/
  types : Entries (List WrittenPath) := []

namespace SecretRegistry

def size (r : SecretRegistry) : Nat := r.types.length

def insert (r : SecretRegistry) (resourceType : String) (paths : List String) :
    Except ExpandError SecretRegistry := do
  return ⟨r.types.insert (Name.fold resourceType) (← paths.mapM WrittenPath.read)⟩

def paths? (r : SecretRegistry) (resourceType : String) : Option (List WrittenPath) :=
  r.types.get? (Name.fold resourceType)

def written? (r : SecretRegistry) (resourceType : String) : Option (List String) :=
  (r.paths? resourceType).map fun ps => ps.map WrittenPath.written

def strings? : Json → Option (List String)
  | .arr items => items.mapM Json.str?
  | _ => none

/-- The registry of a JSON text: an object from types to arrays of paths. -/
def parse (text : String) : Except ExpandError SecretRegistry := do
  let refuse := ExpandError.malformedTemplate "" "invalid secret property data: not a registry"
  match Json.parse? text with
  | some (.obj es) =>
    match es.mapM fun (t, v) => (strings? v).map fun ps => (t, ps) with
    | some types => types.foldlM (fun r (t, ps) => r.insert t ps) {}
    | none => throw refuse
  | _ => throw refuse

/-- Replace the secrets of a body of a type. With `keep` nothing is replaced. -/
def redact (r : SecretRegistry) (resourceType : String) (keep : Bool) (body : Entries Json) :
    Redaction.Redacted (Entries Json) :=
  if keep then (body, [])
  else
    match r.paths? resourceType with
    | none => (body, [])
    | some paths =>
      paths.foldl (fun (body, found) p =>
        let (body, more) := Redaction.inBody p.path body
        (body, found ++ more)) (body, [])

def builtinTypes : List (String × List String) :=
  [("Microsoft.ApiManagement/service/namedValues", ["properties.value"]),
   ("Microsoft.App/containerApps", ["properties.configuration.secrets[*].value"]),
   ("Microsoft.Compute/virtualMachines", ["properties.osProfile.adminPassword"]),
   ("Microsoft.Compute/virtualMachineScaleSets",
     ["properties.virtualMachineProfile.osProfile.adminPassword"]),
   ("Microsoft.ContainerInstance/containerGroups",
     ["properties.imageRegistryCredentials[*].password",
      "properties.containers[*].properties.environmentVariables[*].secureValue"]),
   ("Microsoft.DBforMySQL/flexibleServers", ["properties.administratorLoginPassword"]),
   ("Microsoft.DBforPostgreSQL/flexibleServers", ["properties.administratorLoginPassword"]),
   ("Microsoft.KeyVault/vaults/secrets", ["properties.value"]),
   ("Microsoft.Resources/deploymentScripts",
     ["properties.storageAccountSettings.storageAccountKey",
      "properties.environmentVariables[*].secureValue"]),
   ("Microsoft.Sql/servers", ["properties.administratorLoginPassword"]),
   ("Microsoft.Sql/managedInstances", ["properties.administratorLoginPassword"]),
   ("Microsoft.Synapse/workspaces", ["properties.sqlAdministratorLoginPassword"]),
   ("Microsoft.Web/sites/config", ["properties.siteConfig.appSettings[*].value"])]

def builtin : SecretRegistry :=
  match builtinTypes.foldlM (fun r (t, ps) => r.insert t ps) ({} : SecretRegistry) with
  | .ok r => r
  | .error _ => {}

end SecretRegistry
end ResourceTemplate
