import ResourceTemplate.Expander.Linked

namespace ResourceTemplate

/-- What a declaration becomes at one index of its loop. -/
inductive Instance where
  | emitted (resource : ResourceValue) (nested : Option ExpandedDeployment)
  | existing (resource : ResourceValue)
  /-- The condition is false; the id is given if it can be evaluated. -/
  | skipped (id : Option String)

namespace Expander

variable [Reading]

/-- The truth value of a condition at a place; what has no condition is true. -/
def holds (d : Deployment) (l : Ledger) (pointer : String) (condition : Option Json) :
    ScopeM Bool := do
  match condition with
  | none => return true
  | some c =>
    match ← d.eval l pointer c with
    | .bool b => return b
    | v => throw (.expression pointer (.mismatch "condition" "bool" v))

/-- Whether the members of a body under a key are searched for the values of secure parameters. -/
def isSearched (key : String) : Bool := !(Name.same key "name" || Name.same key "type")

def redactSecure (secure : List Json) (body : Entries Json) :
    Redaction.Redacted (Entries Json) :=
  let parts := body.map fun (k, v) =>
    if isSearched k then
      let (v, paths) := Redaction.ofValue secure k v
      ((k, v), paths)
    else ((k, v), [])
  (parts.map Prod.fst, (parts.map Prod.snd).flatten)

/-- Replace the secrets of a body: the values of secure parameters, then those at the paths of the
registry. -/
def redact (x : Expander) (keep : Bool) (secure : List Json) (type : String)
    (body : Entries Json) : Redaction.Redacted (Entries Json) :=
  let (body, paths) := if keep then (body, []) else redactSecure secure body
  let (body, more) := x.secrets.redact type keep body
  (body, paths ++ more)

def isDeployment (decl : ResourceDeclaration) : Bool :=
  decl.rawType?.any fun t => Name.same t ResourceId.deploymentType

def expandActive (x : Expander) (nested : Nested) (d : Deployment) (l : Ledger)
    (dependsOn : List String) (decl : ResourceDeclaration) (index : Option Nat) :
    ScopeM Instance := do
  -- the expressions of an inline template are its own, so it is taken out before the evaluation
  let (raw, inline) := if isDeployment decl then takeTemplate decl.body else (decl.body, none)
  let body ← d.evalObject l decl.pointer raw
  let identity ← ScopeM.lift (d.identityOf decl body)
  let copyIndex := index.map Int.ofNat
  if decl.existing then
    return .existing { ResourceValue.make identity body [] d.identity.name with
      symbolicName := decl.symbolicName, copyIndex }
  else
    let (body, expanded) ←
      if isDeployment decl then x.expandNested nested d decl identity body inline
      else pure (body, none)
    let (body, redacted) :=
      x.redact d.options.keepSecretProperties (← get).secure identity.type body
    return .emitted { ResourceValue.make identity body dependsOn d.identity.name with
      symbolicName := decl.symbolicName, copyIndex, redacted } expanded

def expandInstance (x : Expander) (nested : Nested) (d : Deployment) (l : Ledger)
    (dependsOn : List String) (decl : ResourceDeclaration) (index : Option Nat) :
    ScopeM Instance := do
  if ← holds d l (decl.pointer ++ "/condition") decl.condition then
    x.expandActive nested d l dependsOn decl index
  else
    return .skipped ((← d.previewIdentity l decl).map ResourceIdentity.id)

def expandInstances (x : Expander) (nested : Nested) (d : Deployment) (l : Ledger)
    (dependsOn : List String) (decl : ResourceDeclaration) : ScopeM (List Instance) := do
  match decl.copy with
  | none => return [← x.expandInstance nested d l dependsOn decl none]
  | some copy =>
    let n ← d.evalCount l (Deployment.countPointer decl) copy.count
    (List.range n).mapM fun i =>
      ScopeM.withLoop copy.name i (x.expandInstance nested d l dependsOn decl (some i))

end Expander
end ResourceTemplate
