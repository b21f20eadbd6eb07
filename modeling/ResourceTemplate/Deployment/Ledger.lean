import ResourceTemplate.Resource
import ResourceTemplate.Template.Basic

namespace ResourceTemplate

inductive DeclarationState where
  | pending
  | expanded
  | skipped
  | failed
deriving DecidableEq, Repr, Inhabited

/-- The identity of an instance, known before it is expanded. -/
structure KnownIdentity where
  /-- The ordinal of the declaration. -/
  declaration : Nat
  id : String
  name : String
deriving DecidableEq, Repr

structure Ledger where
  declarations : List ResourceDeclaration
  symbols : SymbolTable := {}
  /-- The emitted resources in the order of expansion. -/
  resources : List ResourceValue := []
  /-- Resources that are declared to exist: bound, but not emitted. -/
  existing : List ResourceValue := []
  /-- One state for each declaration. -/
  states : List DeclarationState
  known : List KnownIdentity := []
  /-- The ids of instances whose condition is false. -/
  skipped : List String := []

inductive Finding where
  | found (resource : ResourceValue)
  | pending
  | failed
  | skipped
  /-- Declared and settled, but bound to nothing. -/
  | missing
  | external

namespace Ledger

/-- The ledger of a deployment of which nothing is expanded. -/
def ofDeclarations (declarations : List ResourceDeclaration) : Ledger :=
  { declarations, states := declarations.map fun _ => .pending }

def state (l : Ledger) (ordinal : Nat) : DeclarationState := (l.states[ordinal]?).getD .pending

def setState (l : Ledger) (ordinal : Nat) (s : DeclarationState) : Ledger :=
  { l with states := l.states.set ordinal s }

def allResources (l : Ledger) : List ResourceValue := l.resources ++ l.existing

def isSkipped (l : Ledger) (id : String) : Bool := l.skipped.any fun s => ResourceId.same s id

def findingOf : DeclarationState → Finding
  | .pending => .pending
  | .failed => .failed
  | .skipped => .skipped
  | .expanded => .missing

def findingOfSymbol (l : Ledger) (symbol : String) : Finding :=
  let states := (l.declarations.filter fun d => d.symbol?.any fun s => Name.same s symbol).map
    fun d => l.state d.ordinal
  -- of several declarations of a symbol, one that failed decides before one that is pending
  if states.contains .failed then .failed
  else if states.contains .pending then .pending
  else if !states.isEmpty && states.all (· == .skipped) then .skipped
  else .missing

def findById (l : Ledger) (id : String) : Finding :=
  -- before the resources, so that a skipped instance hides a resource of the same id
  if l.isSkipped id then .skipped
  else
    match l.allResources.find? fun r => ResourceId.same r.identity.id id with
    | some r => .found r
    | none => .pending

def isMeant (id name target : String) : Bool := ResourceId.same id target || Name.same name target

/-- What is known of a target that is no symbol: an id or a name. -/
def findByIdOrName (l : Ledger) (target : String) : Finding :=
  match l.allResources.find? fun r => isMeant r.identity.id r.identity.name target with
  | some r => .found r
  | none =>
    -- after the resources, unlike in a look-up by an id
    if l.isSkipped target then .skipped
    else
      match l.known.find? fun k => isMeant k.id k.name target with
      | some k => findingOf (l.state k.declaration)
      | none => .external

/-- What is known of a target: a symbol, `symbol[i]`, an id or a name. -/
def find (l : Ledger) (target : String) : Except SymbolFault Finding :=
  let symbol := match splitIndexed? target with
    | some (name, _) => name
    | none => target
  if l.symbols.contains symbol then
    match l.symbols.lookup target with
    | .error fault => .error fault
    | .ok (some id) => .ok (l.findById id)
    | .ok none => .ok (l.findingOfSymbol symbol)
  else .ok (l.findByIdOrName target)

/-- The id of the first known instance of a declaration, or its description. -/
def label (l : Ledger) (ordinal : Nat) : String :=
  match l.known.find? fun k => k.declaration == ordinal with
  | some k => k.id
  | none =>
    match l.declarations[ordinal]? with
    | some d => d.describe
    | none => ""

end Ledger
end ResourceTemplate
