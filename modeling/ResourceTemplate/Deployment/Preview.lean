import ResourceTemplate.Deployment.Host

namespace ResourceTemplate.Deployment

variable [Reading]

def evalObject (d : Deployment) (l : Ledger) (pointer : String) (members : Entries Json) :
    ScopeM (Entries Json) :=
  Value.evalMembers d.options.maxCopyCount (Value.onHost (d.host l)) pointer [] members

def identityText (decl : ResourceDeclaration) (body : Entries Json) (key : String) :
    Except ExpandError String :=
  match (body.getNamed? key).getD .null with
  | .str s => .ok s
  | v => .error (.expression (decl.pointer ++ "/" ++ key)
      (.mismatch ("resource " ++ key) "string" v))

/-- Whether a declaration may name another resource group or subscription: it is a deployment, or
declares what exists. -/
def mayOverride (decl : ResourceDeclaration) (type : String) : Bool :=
  decl.existing || Name.same type ResourceId.deploymentType

def identityOf (d : Deployment) (decl : ResourceDeclaration) (body : Entries Json) :
    Except ExpandError ResourceIdentity := do
  let type ← identityText decl body "type"
  let name ← identityText decl body "name"
  let text (key : String) : Option String := (body.getNamed? key).bind Json.str?
  let override (key : String) : Option String := if mayOverride decl type then text key else none
  (d.identity.resourceIdentity type name (text "scope") (override "resourceGroup")
    (override "subscriptionId")).mapError (.expression decl.pointer)

def identityKeys : List String := ["type", "name", "scope", "resourceGroup", "subscriptionId"]

def identityMembers (decl : ResourceDeclaration) : Entries Json :=
  identityKeys.filterMap fun key => (Entries.getNamed? decl.body key).map fun v => (key, v)

def previewIdentity (d : Deployment) (l : Ledger) (decl : ResourceDeclaration) :
    ScopeM (Option ResourceIdentity) := do
  match ← ScopeM.attempt (d.evalObject l decl.pointer (identityMembers decl)) with
  | .ok body => return (d.identityOf decl body).toOption
  | .error _ => return none

def countPointer (decl : ResourceDeclaration) : String := decl.pointer ++ "/copy/count"

/-- The identities of the instances of a declaration that can be evaluated. -/
def previewIdentities (d : Deployment) (l : Ledger) (decl : ResourceDeclaration) :
    ScopeM (List ResourceIdentity) := do
  match decl.copy with
  | none => return (← d.previewIdentity l decl).toList
  | some copy =>
    match ← ScopeM.attempt (d.evalCount l (countPointer decl) copy.count) with
    | .error _ => return []
    | .ok n => return (← ScopeM.overLoop copy.name n (d.previewIdentity l decl)).filterMap id

end ResourceTemplate.Deployment
