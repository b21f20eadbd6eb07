namespace ResourceTemplate

structure DependencyNode where
  /-- The position in the template. -/
  ordinal : Nat
  label : String
  /-- The positions, in the list of nodes, of the nodes that come before. -/
  dependsOn : List Nat
deriving DecidableEq, Repr

namespace Order

def dependencies (nodes : List DependencyNode) (i : Nat) : List Nat :=
  match nodes[i]? with
  | some node => (node.dependsOn.filter (· < nodes.length)).eraseDups
  | none => []

def dependents (nodes : List DependencyNode) (i : Nat) : List Nat :=
  (List.range nodes.length).filter fun j => (dependencies nodes j).contains i

def ordinal (nodes : List DependencyNode) (i : Nat) : Nat :=
  match nodes[i]? with
  | some node => node.ordinal
  | none => 0

def labels (nodes : List DependencyNode) (is : List Nat) : List String :=
  is.map fun i =>
    match nodes[i]? with
    | some node => node.label
    | none => ""

/-- The earlier of two nodes: by ordinal, then by position. -/
def earlier (nodes : List DependencyNode) (i j : Nat) : Nat :=
  if ordinal nodes j < ordinal nodes i || (ordinal nodes j == ordinal nodes i && j < i) then j else i

def first? (nodes : List DependencyNode) : List Nat → Option Nat
  | [] => none
  | i :: is => some (is.foldl (earlier nodes) i)

structure Run where
  /-- The nodes that are placed, last first. -/
  placed : List Nat
  /-- The nodes to place next: all that they depend on is placed. -/
  ready : List Nat
  /-- For each node, how many of its dependencies it still waits for. -/
  waiting : List Int

namespace Run

/-- Before anything is placed each node waits for all its dependencies. -/
def start (nodes : List DependencyNode) : Run where
  placed := []
  ready := (List.range nodes.length).filter fun i => (dependencies nodes i).isEmpty
  waiting := (List.range nodes.length).map fun i => ((dependencies nodes i).length : Int)

def waitsFor (r : Run) (i : Nat) : Int := (r.waiting[i]?).getD 0

def place (r : Run) (i : Nat) : Run :=
  { r with placed := i :: r.placed, ready := r.ready.erase i }

/-- A dependency of a node is placed: the node waits for one less, and is ready when none is left. -/
def release (r : Run) (i : Nat) : Run :=
  let left := r.waitsFor i - 1
  { r with
    ready := if left = 0 then i :: r.ready else r.ready
    waiting := r.waiting.set i left }

/-- Place the first of the ready nodes and release those that depend on it, until none is ready. `fuel`
bounds the number of nodes placed. -/
def go (nodes : List DependencyNode) : (fuel : Nat) → Run → Run
  | 0, r => r
  | fuel + 1, r =>
    match first? nodes r.ready with
    -- what is left waits for itself
    | none => r
    | some i => go nodes fuel ((dependents nodes i).foldl release (r.place i))

end Run

def placed (nodes : List DependencyNode) : List Nat :=
  (Run.go nodes nodes.length (.start nodes)).placed

def isNeeded (nodes : List DependencyNode) (rest : List Nat) (i : Nat) : Bool :=
  rest.any fun d => (dependencies nodes d).contains i

/-- Drop nodes that no node of the list depends on until every node is needed. `fuel` bounds the
number of rounds. -/
def prune (nodes : List DependencyNode) : (fuel : Nat) → (rest : List Nat) → List Nat
  | 0, rest => rest
  | fuel + 1, rest =>
    let kept := rest.filter (isNeeded nodes rest)
    if kept.length == rest.length then rest else prune nodes fuel kept

def insertByOrdinal (nodes : List DependencyNode) (i : Nat) : List Nat → List Nat
  | [] => [i]
  | j :: js =>
    if ordinal nodes i < ordinal nodes j then i :: j :: js
    else j :: insertByOrdinal nodes i js

def sortByOrdinal (nodes : List DependencyNode) (is : List Nat) : List Nat :=
  is.foldl (fun acc i => insertByOrdinal nodes i acc) []

end Order

/-- The nodes in the order of expansion, or those that stand in the way of one: the nodes on
cycles and on the ways from cycle to cycle. -/
def expansionOrder (nodes : List DependencyNode) : Except (List Nat) (List Nat) :=
  let placed := Order.placed nodes
  if placed.length = nodes.length then .ok placed.reverse
  else
    let rest := (List.range nodes.length).filter fun i => !placed.contains i
    .error (Order.sortByOrdinal nodes (Order.prune nodes rest.length rest))

end ResourceTemplate
