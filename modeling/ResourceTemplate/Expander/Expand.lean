import ResourceTemplate.Expander.Passes

namespace ResourceTemplate.Expander

variable [Reading]

def copyOutput (d : Deployment) (l : Ledger) (pointer : String) (name : String)
    (copy : OutputCopy) : ScopeM Json := do
  let n ← d.evalCount l (pointer ++ "/copy/count") copy.count
  return .arr (← ScopeM.overLoop name n (d.eval l (pointer ++ "/copy/input") copy.input))

def outputValue (d : Deployment) (l : Ledger) (pointer : String) (o : OutputDefinition) :
    ScopeM Json :=
  match o.copy, o.value with
  | some copy, _ => copyOutput d l pointer o.name copy
  | none, some v => d.eval l (pointer ++ "/value") v
  | none, none => return .null

/-- Check the value of an output against its declared type; null fits any. -/
def checkOutput (pointer : String) (o : OutputDefinition) (v : Json) : Except ExpandError Unit :=
  match o.type with
  | none => .ok ()
  | some t =>
    if v.isNull || t.accepts v then .ok ()
    else .error (.expression pointer (.mismatch ("output '" ++ o.name ++ "'") t.name v))

def evalOutput (d : Deployment) (l : Ledger) (pointer : String) (o : OutputDefinition) :
    ScopeM (Option Json) := do
  if ← holds d l (pointer ++ "/condition") o.condition then
    let v ← outputValue d l pointer o
    ScopeM.lift (checkOutput pointer o v)
    return some v
  else return none

def evalOutputs (d : Deployment) (acc : Entries Json) :
    List OutputDefinition → ExpandM (Entries Json)
  | [] => return acc
  | o :: rest => do
    let pointer := "/outputs/" ++ o.name
    let l := (← get).ledger
    match ← ExpandM.attempt (ExpandM.onScope (evalOutput d l pointer o)) with
    | .ok (some v) => evalOutputs d (acc.insert o.name v) rest
    | .ok none => evalOutputs d acc rest
    | .error e =>
      if e.isStructural then throw e
      else
        modify fun p => p.recordFailure .outputFailed pointer
          ⟨d.identity.name, .output o.name, e⟩
        evalOutputs d acc rest

/-- Expand a deployment of which nothing is expanded yet: its outputs. -/
def run (x : Expander) (nested : Nested) (d : Deployment) : ExpandM (Entries Json) := do
  ExpandM.change declareSymbols
  d.template.resources.forM (learnIdentities d)
  let plan ← ExpandM.onScope (plan d (← get).ledger)
  x.settleAll nested d plan
  evalOutputs d [] d.template.outputs

/-- Expand a template, given the expansion of the deployments nested in it. -/
def expandWith (x : Expander) (nested : Nested) : Nested := fun t identity values log =>
  match (Deployment.create t x.options identity values).run.run { log } with
  | (.error e, s) => (.error e, s.log)
  | (.ok d, s) =>
    match (x.run nested d).run.run (Progress.start s t.resources) with
    | (.error e, p) => (.error e, p.scope.log)
    | (.ok outputs, p) =>
      (.ok
        { name := identity.name
          resources := p.emitted
          outputs
          failures := p.failures
          diagnostics := p.scope.diagnostics
          symbols := p.ledger.symbols },
       p.scope.log)

def refuseNested (x : Expander) : Nested := fun _ identity _ log =>
  (.error (.depthExceeded identity.name x.options.maxDepth), log)

/-- Expand a template below which `depth` more deployments may be nested. -/
def expandAt (x : Expander) : (depth : Nat) → Nested
  | 0, t, identity, values, log => x.expandWith x.refuseNested t identity values log
  | depth + 1, t, identity, values, log =>
    x.expandWith (fun t identity values log => x.expandAt depth t identity values log)
      t identity values log

/-- Expand a template as the root deployment, with values of its caller. The diagnostics are those
of the whole tree in the order of their report. -/
def expand (x : Expander) (t : Template) (values : Entries Json) :
    Except ExpandError ExpandedDeployment × List Diagnostic :=
  x.expandAt x.options.maxDepth t (DeploymentIdentity.root x.options t.scopeLevel) values []

inductive TextFault where
  | expansion (error : ExpandError)
  | parameterFile (fault : ParameterFile.Fault)

/-- Expand the text of a template with the values of a parameter file, if there is one. -/
def expandText (x : Expander) (text : String) (parameterFile : Option String) :
    Except TextFault ExpandedDeployment × List Diagnostic :=
  match Template.parse text with
  | .error e => (.error (.expansion e), [])
  | .ok t =>
    let values := match parameterFile with
      | some file => ParameterFile.parse file
      | none => .ok []
    match values with
    | .error fault => (.error (.parameterFile fault), [])
    | .ok values =>
      let (r, log) := x.expand t values
      (r.mapError .expansion, log)

end ResourceTemplate.Expander
