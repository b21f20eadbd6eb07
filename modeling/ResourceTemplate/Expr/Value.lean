import ResourceTemplate.Expr.Eval

namespace ResourceTemplate

variable [Reading] {σ : Type}

/-- The key of an entry: the text of its value if it is an expression, else as written. -/
def evalKey (h : Host σ) (key : String) : EvalM σ String :=
  if Expr.isExpression key then do return (← TemplateString.eval h key).display
  else return key

mutual

def evalValue (h : Host σ) : Json → EvalM σ Json
  | .str s => TemplateString.eval h s
  | .arr items => do return .arr (← evalItems h items)
  | .obj entries => do return .obj (← evalEntries h [] entries)
  | .null => return .null
  | .bool b => return .bool b
  | .num n => return .num n

def evalItems (h : Host σ) : List Json → EvalM σ (List Json)
  | [] => return []
  | x :: xs => do
    let v ← evalValue h x
    return v :: (← evalItems h xs)

/-- The entries after those of `acc`; a later entry of the same key replaces the value. -/
def evalEntries (h : Host σ) (acc : Entries Json) : List (String × Json) → EvalM σ (Entries Json)
  | [] => return acc
  | (k, v) :: rest => do
    let key ← evalKey h k
    let value ← evalValue h v
    evalEntries h (acc.insert key value) rest

end

end ResourceTemplate
