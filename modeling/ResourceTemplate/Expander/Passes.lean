import ResourceTemplate.Expander.Plan

/-!
Passes over the declarations. A declaration is tried once those it depends on are settled; one that
refers to a resource not yet bound is tried again in the next pass. A pass that settles none has found
declarations that wait for each other.
-/

namespace ResourceTemplate.Expander

inductive Readiness where
  | ready
  | waiting
  | failed (dependency : String)
deriving DecidableEq, Repr

/-- The readiness of a declaration with these dependencies: the first that is not settled well
decides. -/
def readiness (l : Ledger) : List Nat → Readiness
  | [] => .ready
  | dependency :: rest =>
    match l.state dependency with
    | .failed => .failed ((l.declarations[dependency]?.map ResourceDeclaration.describe).getD "")
    | .pending => .waiting
    | .expanded => readiness l rest
    | .skipped => readiness l rest

variable [Reading]

def expandDeclaration (x : Expander) (nested : Nested) (d : Deployment) (plan : Plan)
    (decl : ResourceDeclaration) : ExpandM Unit := do
  let p ← get
  let dependsOn := p.resolve (plan.dependenciesOf decl.ordinal)
  let instances ← ExpandM.onScope (x.expandInstances nested d p.ledger dependsOn decl)
  ExpandM.change (Progress.commit decl instances)

/-- Try a declaration that is ready: whether it is settled. A structural failure ends the expansion,
any other but an unbound symbol settles the declaration as failed. -/
def tryDeclaration (x : Expander) (nested : Nested) (d : Deployment) (plan : Plan)
    (decl : ResourceDeclaration) : ExpandM Bool := do
  match ← ExpandM.attempt (x.expandDeclaration nested d plan decl) with
  | .ok () => return true
  | .error e =>
    if e.isStructural then throw e
    -- what it refers to may be bound by the next pass
    else if e.isUnresolved then return false
    else
      modify (Progress.fail d decl e)
      return true

/-- Settle a declaration if it can be: whether it is settled. -/
def settle (x : Expander) (nested : Nested) (d : Deployment) (plan : Plan)
    (decl : ResourceDeclaration) : ExpandM Bool := do
  match readiness (← get).ledger (plan.dependenciesOf decl.ordinal) with
  | .waiting => return false
  | .failed dependency =>
    modify (Progress.fail d decl (.dependencyFailed dependency))
    return true
  | .ready => x.tryDeclaration nested d plan decl

/-- One pass over pending declarations: those that are still pending. -/
def pass (x : Expander) (nested : Nested) (d : Deployment) (plan : Plan) :
    List Nat → ExpandM (List Nat)
  | [] => return []
  | ordinal :: rest => do
    let settled ← match (← get).ledger.declarations[ordinal]? with
      | some decl => x.settle nested d plan decl
      | none => pure true
    let deferred ← pass x nested d plan rest
    return if settled then deferred else ordinal :: deferred

def waitingError (l : Ledger) (ordinals : List Nat) : ExpandError :=
  .cyclicDependency ((ordinals.mergeSort fun i j => i ≤ j).map l.label)

/-- Passes over pending declarations until none is left. `fuel` bounds their number; each settles
one declaration at least. -/
def passes (x : Expander) (nested : Nested) (d : Deployment) (plan : Plan) :
    (fuel : Nat) → List Nat → ExpandM Unit
  | _, [] => return ()
  | 0, _ :: _ => return ()
  | fuel + 1, i :: is => do
    let deferred ← x.pass nested d plan (i :: is)
    -- nothing was settled, so the next pass would find the same
    if deferred.length = is.length + 1 then throw (waitingError (← get).ledger deferred)
    x.passes nested d plan fuel deferred

def settleAll (x : Expander) (nested : Nested) (d : Deployment) (plan : Plan) : ExpandM Unit :=
  x.passes nested d plan plan.order.length plan.order

end ResourceTemplate.Expander
