import ResourceTemplate.Expander.Basic
import ResourceTemplate.Template.Reader

namespace ResourceTemplate.Expander

def propertiesOf (body : Entries Json) : Entries Json :=
  match body.get? "properties" with
  | some (.obj properties) => properties
  | _ => []

def takeTemplate (body : Entries Json) : Entries Json × Option Json :=
  let properties := propertiesOf body
  match properties.spelling? "template" with
  | none => (body, none)
  | some key => (body.insert "properties" (.obj (properties.swapErase key)), properties.get? key)

/-- Set a property of a body; properties that are no object are replaced. -/
def setProperty (body : Entries Json) (key : String) (v : Json) : Entries Json :=
  body.insert "properties" (.obj ((propertiesOf body).insert key v))

def outputKind : Json → String
  | .str _ => "String"
  | .num _ => "Int"
  | .bool _ => "Bool"
  | .arr _ => "Array"
  | .obj _ => "Object"
  | .null => "Object"

def outputsJson (outputs : Entries Json) : Json :=
  .obj (outputs.map fun (name, v) => (name, .obj [("type", .str (outputKind v)), ("value", v)]))

/-- The values that a deployment resource supplies to its template. Entries without a value are left
out. -/
def suppliedBy (body : Entries Json) : Entries Json :=
  match (propertiesOf body).getNamed? "parameters" with
  | some (.obj entries) => entries.filterMap fun (name, entry) =>
      (ParameterFile.valueOf? entry).map fun v => (name, v)
  | _ => []

def nestedIdentity (parent : DeploymentIdentity) (name : String) (body : Entries Json)
    (level : ScopeLevel) : DeploymentIdentity :=
  let text (key fallback : String) : String := ((body.getNamed? key).bind Json.str?).getD fallback
  { parent with
    name
    subscriptionId := text "subscriptionId" parent.subscriptionId
    resourceGroup := text "resourceGroup" parent.resourceGroup
    location := text "location" parent.location
    scopeLevel := level
    parent := some parent.name }

def linkKeys : List String := ["uri", "relativePath", "id"]

def linkedTemplate (x : Expander) (body : Entries Json) : Except String Json :=
  match (propertiesOf body).getNamed? "templateLink" with
  | some (.obj link) =>
    match linkKeys.findSome? fun key => (Entries.getNamed? link key).bind Json.str? with
    | none => .error "templateLink has no uri"
    | some reference =>
      match x.loader with
      | none => .error "no template loader is configured"
      | some load =>
        match load reference with
        | .error e => .error e.message
        | .ok text =>
          match Json.parse? text with
          | some template => .ok template
          | none => .error "the text is no JSON value"
  | _ => .error "no template or templateLink"

def templateOf (x : Expander) (d : Deployment) (decl : ResourceDeclaration) (name : String)
    (body : Entries Json) (inline : Option Json) : ScopeM (Option Json) :=
  match inline with
  | some template => return some template
  | none =>
    match x.linkedTemplate body with
    | .ok template => return some template
    | .error reason => do
      d.report (decl.pointer ++ "/properties/templateLink")
        (.linkedTemplateUnavailable name reason)
      return none

/-- Expand a nested deployment; its diagnostics are reported whether it fails or not. -/
def runNested (nested : Nested) (t : Template) (identity : DeploymentIdentity)
    (values : Entries Json) : ScopeM ExpandedDeployment := fun s =>
  let (r, log) := nested t identity values s.log
  (r, { s with log })

/-- Expand the template of a deployment resource: the body with the template and its outputs, and
what the template expands to. -/
def expandTemplate (nested : Nested) (d : Deployment) (identity : ResourceIdentity)
    (body : Entries Json) (template : Json) : ScopeM (Entries Json × ExpandedDeployment) := do
  let t ← ScopeM.lift (Template.ofJson template)
  let expanded ← runNested nested t (nestedIdentity d.identity identity.name body t.scopeLevel)
    (suppliedBy body)
  return (setProperty body "outputs" (outputsJson expanded.outputs), expanded)

def expandNested (x : Expander) (nested : Nested) (d : Deployment) (decl : ResourceDeclaration)
    (identity : ResourceIdentity) (body : Entries Json) (inline : Option Json) :
    ScopeM (Entries Json × Option ExpandedDeployment) := do
  let body := match inline with
    | some template => setProperty body "template" template
    | none => body
  match ← x.templateOf d decl identity.name body inline with
  | none => return (body, none)
  | some template =>
    let (body, expanded) ← expandTemplate nested d identity body template
    return (body, some expanded)

end ResourceTemplate.Expander
