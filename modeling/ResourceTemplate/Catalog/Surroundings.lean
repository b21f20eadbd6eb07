import ResourceTemplate.Catalog.Arithmetic
import ResourceTemplate.Expr.Host
import ResourceTemplate.Placeholder

namespace ResourceTemplate.Catalog

abbrev Asking (σ : Type) := Host σ → Args → EvalM σ Json

namespace Surroundings

variable {σ : Type}

def reading (f : Host σ → σ → Json) : Asking σ := fun h a => do
  Host.lift (a.exactly 0)
  Host.read (f h)

def parameterNamed : Asking σ := fun h a => do
  Host.lift (a.exactly 1)
  h.parameterValue (← Host.lift (a.string 0))

def variableNamed : Asking σ := fun h a => do
  Host.lift (a.exactly 1)
  h.variableValue (← Host.lift (a.string 0))

def loopAndOffset (a : Args) : Except ExprError (Option String × Int) := do
  a.expect 0 (some 2)
  match a.values with
  | [] => return (none, 0)
  | [.str name] => return (some name, 0)
  | [_] => return (none, ← a.int 0)
  | _ => return (some (← a.string 0), ← a.int 1)

def copyIndex : Asking σ := fun h a => do
  let (loop, offset) ← Host.lift (loopAndOffset a)
  let index ← Host.ask (h.copyIndex loop)
  match Number.inRange? (index + offset) with
  | some n => return .int n
  | none => throw (.numericOverflow "copyIndex")

def newGuid : Asking σ := fun h a => do
  Host.lift (a.exactly 0)
  return .str (← Host.act h.newGuid)

def defaultDateFormat : String := "yyyyMMddTHHmmssZ"

def timeIn (h : Host σ) (pattern : String) : EvalM σ Json := do
  match (← Host.read h.utcNow).format? pattern with
  | some text => return .str text
  | none => throw (.aborted pattern)

def utcNow : Asking σ := fun h a => do
  Host.lift (a.expect 0 (some 1))
  match a.values with
  | [] => timeIn h defaultDateFormat
  | .str pattern :: _ => timeIn h pattern
  | v :: _ => throw (.mismatch "argument 1 of 'utcNow'" "string" v)

/-- `list*` functions answer only once the resource exists. -/
def list (a : Args) : Except ExprError Json := do
  a.expect 2 (some 3)
  let _ ← a.string 0
  return Placeholder.secretList

def textMember (v : Json) (key : String) : String := ((v.member? key).bind Json.str?).getD ""

def currentSubscription (h : Host σ) (s : σ) : String := textMember (h.subscription s) "subscriptionId"

def currentGroup (h : Host σ) (s : σ) : String := textMember (h.resourceGroup s) "name"

/-- The place of the resource type: the first of the leading arguments with a slash. -/
def typePosition (a : Args) (texts : List String) (maxLeading : Nat) : Except ExprError Nat :=
  match (texts.take (maxLeading + 1)).findIdx? fun t => t.toList.contains '/' with
  | some i => .ok i
  | none => .error (.invalidArgument a.function "no resource type argument found")

def namesAfter (texts : List String) (position : Nat) : List String :=
  (texts.drop (position + 1)).flatMap ResourceId.splitName

def build (function scope resourceType : String) (names : List String) : Except ExprError Json :=
  match ResourceId.under scope resourceType names with
  | .ok id => .ok (.str id)
  | .error fault => .error (fault.toExprError function)

/-- The scope of the resources of a deployment, or the one that leading arguments name. -/
def scopeOf (h : Host σ) (s : σ) (texts : List String) (position : Nat) : String :=
  let subscriptionId := if position == 2 then texts.getD 0 "" else currentSubscription h s
  if Name.same (texts.getD position "") ResourceId.resourceGroupType then
    ResourceId.subscriptionScope subscriptionId
  else if position == 2 then ResourceId.resourceGroupScope subscriptionId (texts.getD 1 "")
  else if position == 1 then ResourceId.resourceGroupScope subscriptionId (texts.getD 0 "")
  else
    match h.scopeLevel s with
    | .resourceGroup => ResourceId.resourceGroupScope subscriptionId (currentGroup h s)
    | .subscription => ResourceId.subscriptionScope subscriptionId
    | .managementGroup => "/"
    | .tenant => "/"

/-- `resourceId([subscription], [group], type, name, …)` -/
def resourceId : Asking σ := fun h a => do
  Host.lift (a.expect 2 none)
  let texts ← Host.lift a.strings
  let position ← Host.lift (typePosition a texts 2)
  let scope ← Host.read fun s => scopeOf h s texts position
  Host.lift (build "resourceId" scope (texts.getD position "") (namesAfter texts position))

def subscriptionResourceId : Asking σ := fun h a => do
  Host.lift (a.expect 2 none)
  let texts ← Host.lift a.strings
  let position ← Host.lift (typePosition a texts 1)
  let subscriptionId ←
    if position == 1 then pure (texts.getD 0 "") else Host.read (currentSubscription h)
  Host.lift (build "subscriptionResourceId" (ResourceId.subscriptionScope subscriptionId)
    (texts.getD position "") (namesAfter texts position))

def tenantResourceId (a : Args) : Except ExprError Json := do
  a.expect 2 none
  let texts ← a.strings
  build "tenantResourceId" "/" (texts.getD 0 "") (namesAfter texts 0)

def extensionResourceId (a : Args) : Except ExprError Json := do
  a.expect 3 none
  let texts ← a.strings
  build "extensionResourceId" (texts.getD 0 "") (texts.getD 1 "") (namesAfter texts 1)

def reference : Asking σ := fun h a => do
  Host.lift (a.expect 1 (some 3))
  let target ← Host.lift (a.string 0)
  let full := match (a.values[2]? : Option Json) with
    | some (.str s) => Name.same s "full"
    | _ => false
  h.reference target full

def resourceInfo : Asking σ := fun h a => do
  Host.lift (a.exactly 1)
  h.resourceInfo (← Host.lift (a.string 0))

def pureFunctions : List (String × Pure) :=
  [("extensionresourceid", extensionResourceId), ("tenantresourceid", tenantResourceId)]

def functions : List (String × Asking σ) :=
  [("copyindex", copyIndex), ("deployment", reading fun h => h.deployment),
   ("environment", reading fun h _ => h.environment), ("newguid", newGuid),
   ("parameters", parameterNamed), ("reference", reference),
   ("resourcegroup", reading fun h => h.resourceGroup), ("resourceid", resourceId),
   ("resourceinfo", resourceInfo), ("subscription", reading fun h => h.subscription),
   ("subscriptionresourceid", subscriptionResourceId), ("tenant", reading fun h => h.tenant),
   ("utcnow", utcNow), ("variables", variableNamed)]

end Surroundings
end ResourceTemplate.Catalog
