import ResourceTemplate.Expander.Instance

namespace ResourceTemplate

structure Progress where
  scope : Scope
  ledger : Ledger
  /-- The ids of the emitted instances of each declaration. -/
  instanceIds : List (List String)
  /-- The emitted resources, each nested deployment followed by its own. -/
  emitted : List ResourceValue := []
  failures : List ExpansionFailure := []

abbrev ExpandM := ExceptT ExpandError (StateM Progress)

namespace ExpandM

variable {α : Type}

def onScope (m : ScopeM α) : ExpandM α := fun p =>
  let (r, scope) := m.run.run p.scope
  (r, { p with scope })

def change (f : Progress → Except ExpandError Progress) : ExpandM Unit := fun p =>
  match f p with
  | .ok q => (.ok (), q)
  | .error e => (.error e, p)

def attempt (m : ExpandM α) : ExpandM (Except ExpandError α) := fun p =>
  let (r, q) := m.run.run p
  (.ok r, q)

end ExpandM

namespace Progress

/-- The progress of a deployment of which nothing is expanded. -/
def start (scope : Scope) (declarations : List ResourceDeclaration) : Progress :=
  { scope, ledger := Ledger.ofDeclarations declarations
    instanceIds := declarations.map fun _ => [] }

def idsOf (p : Progress) (ordinal : Nat) : List String := (p.instanceIds[ordinal]?).getD []

def addId (ids : List String) (id : String) : List String :=
  if ids.any fun i => ResourceId.same i id then ids else ids ++ [id]

def resolve (p : Progress) (dependencies : List Nat) : List String :=
  (dependencies.flatMap p.idsOf).foldl addId []

def bind (p : Progress) (decl : ResourceDeclaration) (id : String) : Except ExpandError Progress :=
  match decl.symbol? with
  | none => .ok p
  | some symbol =>
    match p.ledger.symbols.configure symbol id with
    | .error fault => .error (.symbol fault)
    | .ok symbols => .ok { p with ledger := { p.ledger with symbols } }

def emit (p : Progress) (ordinal : Nat) (r : ResourceValue) : Progress :=
  { p with
    instanceIds := p.instanceIds.set ordinal (p.idsOf ordinal ++ [r.identity.id])
    ledger := { p.ledger with resources := p.ledger.resources ++ [r] }
    emitted := p.emitted ++ [r] }

def absorb (p : Progress) (x : ExpandedDeployment) : Progress :=
  { p with
    emitted := p.emitted ++ x.resources
    failures := p.failures ++ x.failures
    scope := { p.scope with diagnostics := p.scope.diagnostics ++ x.diagnostics } }

/-- Enter an instance. A skipped instance of a loop is bound as well, so that the symbol has an id
for every index. -/
def enter (decl : ResourceDeclaration) (p : Progress) : Instance → Except ExpandError Progress
  | .emitted r nested => do
    let p := (← p.bind decl r.identity.id).emit decl.ordinal r
    match nested with
    | some x => return p.absorb x
    | none => return p
  | .existing r => do
    let p ← p.bind decl r.identity.id
    return { p with ledger := { p.ledger with existing := p.ledger.existing ++ [r] } }
  | .skipped none => .ok p
  | .skipped (some id) => do
    let p ← if decl.copy.isSome then p.bind decl id else .ok p
    return { p with ledger := { p.ledger with skipped := p.ledger.skipped ++ [id] } }

def isSkipped : Instance → Bool
  | .skipped _ => true
  | _ => false

/-- The state of a declaration with these instances: skipped if there are some and all of them are. -/
def stateOf (instances : List Instance) : DeclarationState :=
  if !instances.isEmpty && instances.all isSkipped then .skipped else .expanded

def setState (p : Progress) (ordinal : Nat) (s : DeclarationState) : Progress :=
  { p with ledger := p.ledger.setState ordinal s }

def commit (decl : ResourceDeclaration) (instances : List Instance) (p : Progress) :
    Except ExpandError Progress := do
  return (← instances.foldlM (enter decl) p).setState decl.ordinal (stateOf instances)

def recordFailure (p : Progress) (code : DiagnosticCode) (pointer : String)
    (failure : ExpansionFailure) : Progress :=
  { p with
    scope := p.scope.report failure.deployment pointer (.error code failure.text)
    failures := p.failures ++ [failure] }

def fail (d : Deployment) (decl : ResourceDeclaration) (e : ExpandError) (p : Progress) :
    Progress :=
  (p.setState decl.ordinal .failed).recordFailure .resourceFailed decl.pointer
    ⟨d.identity.name, .resource decl.describe, e⟩

end Progress
end ResourceTemplate
