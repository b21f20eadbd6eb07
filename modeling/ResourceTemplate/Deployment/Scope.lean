import ResourceTemplate.Diagnostic
import ResourceTemplate.Expr.Host

namespace ResourceTemplate

inductive Slot where
  | inProgress
  | evaluated (value : Json)

structure Scope where
  /-- Under folded names, as are the variables. -/
  parameters : Entries Slot := []
  vars : Entries Slot := []
  /-- The loops around the value under evaluation, innermost first. -/
  loops : List (String × Int) := []
  /-- The place of the value under evaluation. -/
  pointer : String := ""
  /-- The values of secure parameters that were asked for. -/
  secure : List Json := []
  /-- How many identifiers were made. -/
  guids : Nat := 0
  /-- The diagnostics of the deployment, each once. -/
  diagnostics : List Diagnostic := []
  /-- All diagnostics of the tree of deployments in the order of their report. -/
  log : List Diagnostic := []

abbrev ScopeM := ExceptT ExpandError (StateM Scope)

namespace Scope

def report (s : Scope) (deployment pointer : String) (d : Diagnostic) : Scope :=
  let d := d.located deployment pointer
  if s.diagnostics.contains d then s
  else { s with diagnostics := s.diagnostics ++ [d], log := s.log ++ [d] }

/-- Whether a value is worth looking for: a string or an object that is not empty. -/
def isTrackable : Json → Bool
  | .str s => !s.isEmpty
  | .obj es => !es.isEmpty
  | _ => false

def remember (s : Scope) (v : Json) : Scope :=
  if isTrackable v && !(s.secure.any fun x => x.eqUnordered v) then
    { s with secure := s.secure ++ [v] }
  else s

def copyIndex (s : Scope) (loop : Option String) : Except ExprError Int :=
  let found := match loop with
    | none => s.loops.head?
    | some name => s.loops.find? fun l => Name.same l.1 name
  match found with
  | some l => .ok l.2
  | none => .error (.copyIndexUnavailable loop)

end Scope

namespace ScopeM

variable {ε α : Type}

def lift (r : Except ExpandError α) : ScopeM α := fun s => (r, s)

def act (f : Scope → Scope) : ScopeM Unit := fun s => (.ok (), f s)

def report (deployment pointer : String) (d : Diagnostic) : ScopeM Unit :=
  act fun s => s.report deployment pointer d

/-- Evaluate inside one more loop at an index. The loop is entered before; after it the innermost loop is
left, whether the evaluation fails or not. -/
def withLoop (name : String) (i : Nat) (m : ScopeM α) : ScopeM α := fun s =>
  let (r, t) := m.run.run { s with loops := (name, (i : Int)) :: s.loops }
  (r, { t with loops := t.loops.tail })

/-- Evaluate outside of all loops. The loops are set aside before and put back after it. -/
def outsideLoops (m : ScopeM α) : ScopeM α := fun s =>
  let (r, t) := m.run.run { s with loops := [] }
  (r, { t with loops := s.loops })

def overLoop (name : String) (count : Nat) (m : ScopeM α) : ScopeM (List α) :=
  (List.range count).mapM fun i => withLoop name i m

def atPlace (pointer : String) (m : EvalM Scope α) : ScopeM α := fun s =>
  let (r, t) := m.run.run { s with pointer }
  (r.mapError (.expression pointer), { t with pointer := s.pointer })

/-- The outcome as a value, whatever it is, unless it was broken off. -/
def attempt (m : ScopeM α) : ScopeM (Except ExpandError α) := fun s =>
  let (r, t) := m.run.run s
  (ExpandError.caught r, t)

end ScopeM

/-- A failure inside an expression: the cause of a failed expression, or the text of another. -/
def ExpandError.toExprError : ExpandError → ExprError
  | .expression _ source => source
  | e => .malformed e.message

def ScopeM.toEval {α : Type} (m : ScopeM α) : EvalM Scope α := fun s =>
  let (r, t) := m.run.run s
  (r.mapError ExpandError.toExprError, t)

end ResourceTemplate
