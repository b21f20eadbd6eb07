import ResourceTemplate.Expr.Eval

namespace ResourceTemplate

/-- The state of a host without a deployment. Parameters and variables are kept under folded names. -/
structure Standalone where
  parameters : Entries Json := []
  vars : Entries Json := []
  /-- The loops, outermost first. -/
  loops : List (Option String × Int) := []
  now : Instant := ⟨0, 0⟩
  warnings : List String := []
  guids : Nat := 0

namespace Standalone

def withParameter (s : Standalone) (name : String) (v : Json) : Standalone :=
  { s with parameters := s.parameters.insert (Name.fold name) v }

def withVariable (s : Standalone) (name : String) (v : Json) : Standalone :=
  { s with vars := s.vars.insert (Name.fold name) v }

def copyIndex (loops : List (Option String × Int)) (name : Option String) : Except ExprError Int :=
  let found := match name with
    | none => loops.getLast?
    | some n => loops.reverse.find? fun l => l.1.any fun m => Name.same m n
  match found with
  | some l => .ok l.2
  | none => .error (.copyIndexUnavailable name)

def zeroId : String := "00000000-0000-0000-0000-000000000000"

def deployment : Json := .obj
  [("name", .str "deployment"),
   ("properties", .obj [("template", .obj []), ("parameters", .obj [])])]

def subscription : Json := .obj
  [("id", .str ("/subscriptions/" ++ zeroId)), ("subscriptionId", .str zeroId),
   ("tenantId", .str zeroId), ("displayName", .str "Static subscription")]

def resourceGroup : Json := .obj
  [("id", .str ("/subscriptions/" ++ zeroId ++ "/resourceGroups/static-rg")),
   ("name", .str "static-rg"),
   ("type", .str "Microsoft.Resources/resourceGroups"),
   ("location", .str "eastus"),
   ("properties", .obj [("provisioningState", .str "Succeeded")])]

def tenant : Json := .obj [("tenantId", .str zeroId)]

def guid (n : Nat) : String := Guid.ofName ("static-host/" ++ Args.count (n + 1))

def host : Host Standalone where
  parameterValue name := Host.ask fun s =>
    match s.parameters.get? (Name.fold name) with
    | some v => .ok v
    | none => .error (.unknownParameter name)
  variableValue name := Host.ask fun s =>
    match s.vars.get? (Name.fold name) with
    | some v => .ok v
    | none => .error (.unknownVariable name)
  copyIndex name s := Standalone.copyIndex s.loops name
  reference target _ := throw (.unresolvedSymbol target)
  resourceInfo symbol := throw (.unresolvedSymbol symbol)
  userFunction ns name _ := throw (.unknownFunction (ns ++ "." ++ name) 0)
  deployment _ := deployment
  subscription _ := subscription
  resourceGroup _ := resourceGroup
  tenant _ := tenant
  environment := publicCloud
  scopeLevel _ := .resourceGroup
  utcNow s := s.now
  newGuid s := (guid s.guids, { s with guids := s.guids + 1 })
  warn text s := { s with warnings := s.warnings ++ [text] }

end Standalone
end ResourceTemplate
