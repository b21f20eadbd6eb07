import ResourceTemplate.Deployment.Scope
import ResourceTemplate.Expr.Eval

/-!
Evaluation of the values of a template. Every string that begins with a bracket is evaluated, keys
included. A `copy` member whose entries have a name and an input stands for one array member for each
entry: the values of the input at each index of a loop.
-/

namespace ResourceTemplate.Value

abbrev Strings := (pointer : String) → String → ScopeM Json

/-- The evaluation of the strings of a template on a host; a string without a bracket is itself. -/
def onHost [Reading] (h : Host Scope) : Strings := fun pointer s =>
  if s.toList.head? == some '[' then ScopeM.atPlace pointer (TemplateString.eval h s)
  else return .str s

def count (maxCount : Nat) (pointer : String) (v : Json) : Except ExpandError Nat :=
  match v.int64? with
  | none => .error (.expression pointer (.mismatch "copy count" "int" v))
  | some n =>
    if 0 ≤ n ∧ n ≤ maxCount then .ok n.toNat
    else .error (.expression pointer (.invalidArgument "copy"
      ("count " ++ String.ofList (Integer.text n) ++ " is outside 0..=" ++
        String.ofList (Integer.natText maxCount))))

def isCopyEntry : Json → Bool
  | .obj es => (Entries.spelling? es "name").isSome && (Entries.spelling? es "input").isSome
  | _ => false

def isCopy (key : String) : Json → Bool
  | .arr entries => Name.same key "copy" && !entries.isEmpty && entries.all isCopyEntry
  | _ => false

/-- The parts of an entry of copies: the name, and the keys of its count and its input. -/
structure CopyParts where
  name : String
  countKey : String
  inputKey : String

def copyParts (pointer : String) (es : Entries Json) : Except ExpandError CopyParts :=
  let missing (what : String) : Except ExpandError CopyParts :=
    .error (.malformedTemplate pointer ("copy entry is missing '" ++ what ++ "'"))
  match (Entries.getNamed? es "name").bind Json.str? with
  | none => missing "name"
  | some name =>
    match Entries.spelling? es "count" with
    | none => missing "count"
    | some countKey =>
      match Entries.spelling? es "input" with
      | none => missing "input"
      | some inputKey => .ok ⟨name, countKey, inputKey⟩

def key (strings : Strings) (pointer : String) (k : String) : ScopeM String :=
  if k.toList.head? == some '[' then do return (← strings pointer k).display
  else return k

mutual

def eval (maxCount : Nat) (strings : Strings) (pointer : String) : Json → ScopeM Json
  | .str s => strings pointer s
  | .arr items => do return .arr (← evalItems maxCount strings pointer 0 items)
  | .obj members => do return .obj (← evalMembers maxCount strings pointer [] members)
  | .null => return .null
  | .bool b => return .bool b
  | .num n => return .num n

/-- The items of an array at a place; `i` counts those before. -/
def evalItems (maxCount : Nat) (strings : Strings) (pointer : String) (i : Nat) :
    List Json → ScopeM (List Json)
  | [] => return []
  | v :: vs => do
    let x ← eval maxCount strings (pointer ++ "/" ++ String.ofList (Integer.natText i)) v
    return x :: (← evalItems maxCount strings pointer (i + 1) vs)

/-- The members of an object after those of `acc`; a later member of the same key replaces the
value. -/
def evalMembers (maxCount : Nat) (strings : Strings) (pointer : String) (acc : Entries Json) :
    List (String × Json) → ScopeM (Entries Json)
  | [] => return acc
  | (k, v) :: rest => do
    let here := pointer ++ "/" ++ k
    if isCopy k v then
      let acc ← evalCopies maxCount strings here acc v
      evalMembers maxCount strings pointer acc rest
    else
      let name ← key strings here k
      let x ← eval maxCount strings here v
      evalMembers maxCount strings pointer (acc.insert name x) rest

/-- The members that the entries of copies stand for, after those of `acc`. -/
def evalCopies (maxCount : Nat) (strings : Strings) (pointer : String) (acc : Entries Json) :
    Json → ScopeM (Entries Json)
  | .arr entries => evalCopyList maxCount strings pointer acc entries
  | _ => return acc

def evalCopyList (maxCount : Nat) (strings : Strings) (pointer : String) (acc : Entries Json) :
    List Json → ScopeM (Entries Json)
  | [] => return acc
  | entry :: entries => do
    let (name, values) ← evalCopy maxCount strings pointer entry
    evalCopyList maxCount strings pointer (acc.insert name values) entries

def evalCopy (maxCount : Nat) (strings : Strings) (pointer : String) :
    Json → ScopeM (String × Json)
  | .obj es => do
    let parts ← ScopeM.lift (copyParts pointer es)
    let n ← evalMember maxCount strings (pointer ++ "/count") parts.countKey es
    let n ← ScopeM.lift (count maxCount (pointer ++ "/count") n)
    let values ← ScopeM.overLoop parts.name n
      (evalMember maxCount strings (pointer ++ "/input") parts.inputKey es)
    return (parts.name, .arr values)
  | _ => ScopeM.lift (.error (.malformedTemplate pointer "copy entry is missing 'name'"))

def evalMember (maxCount : Nat) (strings : Strings) (pointer name : String) :
    List (String × Json) → ScopeM Json
  | [] => return .null
  | (k, v) :: rest =>
    if k == name then eval maxCount strings pointer v
    else evalMember maxCount strings pointer name rest

end

def evalCount (maxCount : Nat) (strings : Strings) (pointer : String) (v : Json) : ScopeM Nat := do
  ScopeM.lift (count maxCount pointer (← eval maxCount strings pointer v))

end ResourceTemplate.Value
