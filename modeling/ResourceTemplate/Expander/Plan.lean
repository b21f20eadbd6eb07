import ResourceTemplate.Expander.Progress
import ResourceTemplate.Order

namespace ResourceTemplate.Expander

/-- Declare the symbol of a declaration: an array for a loop, else an object. -/
def declareSymbol (t : SymbolTable) (decl : ResourceDeclaration) : Except SymbolFault SymbolTable :=
  match decl.symbol?, decl.copy with
  | none, _ => .ok t
  | some symbol, some _ => t.declareArray symbol
  | some symbol, none => t.declareObject symbol none

def declareSymbols (p : Progress) : Except ExpandError Progress :=
  match p.ledger.declarations.foldlM declareSymbol p.ledger.symbols with
  | .error fault => .error (.symbol fault)
  | .ok symbols => .ok { p with ledger := { p.ledger with symbols } }

variable [Reading]

def learnIdentities (d : Deployment) (decl : ResourceDeclaration) : ExpandM Unit := do
  let identities ← ExpandM.onScope (d.previewIdentities (← get).ledger decl)
  let known := identities.map fun r => ⟨decl.ordinal, r.id, r.name⟩
  modify fun p => { p with ledger := { p.ledger with known := p.ledger.known ++ known } }

/-- The text of an entry of `dependsOn`; one that cannot be evaluated is taken as it is written. -/
def dependencyText (d : Deployment) (l : Ledger) (pointer : String) (entry : Json) :
    ScopeM String := do
  match ← ScopeM.attempt (d.eval l pointer entry) with
  | .ok (.str s) => return s
  | .ok v => return v.display
  | .error _ => return entry.str?.getD ""

/-- The texts of the entries of `dependsOn` in turn; `i` counts those before. -/
def dependencyTextsFrom (d : Deployment) (l : Ledger) (pointer : String) :
    (i : Nat) → List Json → ScopeM (List String)
  | _, [] => return []
  | i, entry :: entries => do
    let text ← dependencyText d l (pointer ++ "/" ++ String.ofList (Integer.natText i)) entry
    return text :: (← dependencyTextsFrom d l pointer (i + 1) entries)

def dependsOnPointer (decl : ResourceDeclaration) : String := decl.pointer ++ "/dependsOn"

/-- The texts that a declaration depends on, each once; those of a loop at each of its indices. -/
def dependencyTexts (d : Deployment) (l : Ledger) (decl : ResourceDeclaration) :
    ScopeM (List String) := do
  if decl.dependsOn.isEmpty then return []
  let once := dependencyTextsFrom d l (dependsOnPointer decl) 0 decl.dependsOn
  let texts ← match decl.copy with
    | none => once
    | some copy => do
      let counted ← ScopeM.attempt (d.evalCount l (Deployment.countPointer decl) copy.count)
      return (← ScopeM.overLoop copy.name (counted.toOption.getD 0) once).flatten
  return (texts.filter fun t => !t.isEmpty).eraseDups

/-- Whether a known instance is meant by a text: by its id, its name, or the end of its id. -/
def isNamedBy (text : String) (k : KnownIdentity) : Bool :=
  ResourceId.same k.id text || Name.same k.name text ||
    ("/" ++ Name.fold text).toList.isSuffixOf (Name.fold k.id).toList

/-- The declarations that a text means, by symbol or by a known instance. -/
def dependenciesOf (l : Ledger) (text : String) : List Nat :=
  let bySymbol := (l.declarations.filter fun d => d.symbol?.any fun s => Name.same s text).map
    ResourceDeclaration.ordinal
  let byInstance := (l.known.filter (isNamedBy text)).map KnownIdentity.declaration
  (bySymbol ++ byInstance).eraseDups

def reportUnmatched (d : Deployment) (l : Ledger) (decl : ResourceDeclaration) (text : String) :
    ScopeM Unit :=
  if (dependenciesOf l text).isEmpty then
    d.report (dependsOnPointer decl) (.unmatchedDependency decl.describe text)
  else return ()

/-- The declarations that a declaration depends on: the one it stands in, then those its texts
mean. Texts that mean none are reported. -/
def dependencies (d : Deployment) (l : Ledger) (decl : ResourceDeclaration) :
    ScopeM (List Nat) := do
  let texts ← dependencyTexts d l decl
  texts.forM (reportUnmatched d l decl)
  -- a declaration that names itself does not wait for itself
  let named := (texts.flatMap (dependenciesOf l)).filter (· != decl.ordinal)
  return (decl.parent.toList ++ named).eraseDups

/-- The dependencies of each declaration, and the order of expansion. -/
structure Plan where
  dependencies : List (List Nat)
  order : List Nat

namespace Plan

def dependenciesOf (plan : Plan) (ordinal : Nat) : List Nat :=
  (plan.dependencies[ordinal]?).getD []

end Plan

def plan (d : Deployment) (l : Ledger) : ScopeM Plan := do
  let nodes ← l.declarations.mapM fun decl => do
    return { ordinal := decl.ordinal, label := l.label decl.ordinal,
             dependsOn := ← dependencies d l decl : DependencyNode }
  match expansionOrder nodes with
  | .ok order => return ⟨nodes.map DependencyNode.dependsOn, order⟩
  | .error cycle => throw (.cyclicDependency (Order.labels nodes cycle))

end ResourceTemplate.Expander
