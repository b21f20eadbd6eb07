import ResourceTemplate.Catalog
import ResourceTemplate.Expr.Host

namespace ResourceTemplate.Sort

variable {σ α : Type}

/-- Whether `x` is less than `y`. An item that is not less is asked the other way round, too. -/
def precedes (less : α → α → EvalM σ Bool) (x y : α) : EvalM σ Bool := do
  if ← less x y then return true
  let _ ← less y x
  return false

/-- Carry an item back over the greater ones of a sorted list, held greatest first. -/
def carry (less : α → α → EvalM σ Bool) (x : α) : List α → EvalM σ (List α)
  | [] => return [x]
  | y :: ys => do
    if ← precedes less x y then return y :: (← carry less x ys)
    return x :: y :: ys

def into (less : α → α → EvalM σ Bool) (sorted : List α) : List α → EvalM σ (List α)
  | [] => return sorted
  | x :: xs => do into less (← carry less x sorted) xs

def sort (less : α → α → EvalM σ Bool) (xs : List α) : EvalM σ (List α) := do
  return (← into less [] xs).reverse

end ResourceTemplate.Sort

namespace ResourceTemplate

namespace Expr

abbrev Bindings := List (String × Json)

abbrev Scopes := List Bindings

variable {σ : Type}

def Scopes.find? (scopes : Scopes) (name : String) : Option Json :=
  (scopes.flatten.find? fun b => Name.same b.1 name).map Prod.snd

def propertyOf (target : Json) (name : String) : Except ExprError Json :=
  match Placeholder.member? target name with
  | some member => .ok member
  | none =>
    match target with
    | .obj es =>
      match Entries.getNamed? es name with
      | some v => .ok v
      | none => .error (.missingProperty name)
    | other => .error (.typeMismatch ("property access '." ++ name ++ "'") "object" other.typeName)

def itemAt (items : List Json) (n : Number) : Except ExprError Json :=
  match n.toInt64? with
  | none => .error (.numericOverflow "array index")
  | some i =>
    if i < 0 then .error (.indexOutOfRange i items.length)
    else
      match items[i.toNat]? with
      | some v => .ok v
      | none => .error (.indexOutOfRange i items.length)

def elementOf (target index : Json) : Except ExprError Json :=
  match Placeholder.member? target index.display with
  | some member => .ok member
  | none =>
    match target, index with
    | .arr items, .num n => itemAt items n
    | .obj es, .str name => propertyOf (.obj es) name
    | target, index =>
      .error (.typeMismatch "index access" "array[int] or object['name']"
        (target.typeName ++ "[" ++ index.typeName ++ "]"))

def truth (function : String) (i : Nat) : Json → Except ExprError Bool
  | .bool b => .ok b
  | v => .error (.mismatch (Args.context function i) "bool" v)

def itemsOf (function : String) (i : Nat) : Json → Except ExprError (List Json)
  | .arr xs => .ok xs
  | v => .error (.mismatch (Args.context function i) "array" v)

def verdict (form : String) : Json → Except ExprError Bool
  | .bool b => .ok b
  | v => .error (.mismatch ("result of '" ++ form ++ "' lambda") "bool" v)

def lambdaParts (function : String) (i : Nat) : Expr → Except ExprError (List Expr)
  | .call none name args _ =>
    if Name.same name "lambda" then .ok args else refuse
  | _ => refuse
where
  refuse : Except ExprError (List Expr) :=
    .error (.invalidArgument function ("argument " ++ Args.count (i + 1) ++ " must be a lambda"))

/-- The variables that the parameters of a lambda bind; the body is left out. -/
def bind : List Expr → List Json → Except ExprError Bindings
  | .str name :: params, v :: values => (bind params values).map ((name, v) :: ·)
  | _ :: _ :: _, _ :: _ =>
    .error (.invalidArgument "lambda" "parameter names must be string literals")
  | _, _ => .ok []

def checkLambda (parts : List Expr) (values : List Json) : Except ExprError Bindings :=
  if parts.isEmpty then .error (.invalidArgument "lambda" "missing body")
  else if parts.length ≠ values.length + 1 then
    .error (.invalidArgument "lambda" ("expects " ++ Args.count values.length ++
      " parameter(s), got " ++ Args.count (parts.length - 1)))
  else bind parts values

def remarkUnknown (h : Host σ) (e : Expr) : EvalM σ Unit :=
  (e.calls.filter fun c => c.ns.isNone && !Catalog.isKnown c.name).forM fun c =>
    h.remark ("Unknown function '" ++ c.name ++ "' at offset " ++ Args.count c.span.start ++
      " in an if() branch that was not taken")

/-- What an expression means on a host: its value inside lambdas, and the value of the body it has
if it is a lambda. -/
structure Meaning (σ : Type) where
  expr : Expr
  value : Scopes → EvalM σ Json
  body : Scopes → EvalM σ Json

namespace Meaning

def values (scopes : Scopes) (ms : List (Meaning σ)) : EvalM σ (List Json) :=
  ms.mapM fun m => m.value scopes

def apply (f : Meaning σ) (parts : List Expr) (scopes : Scopes) (values : List Json) :
    EvalM σ Json := do
  let bindings ← Host.lift (checkLambda parts values)
  f.body (bindings :: scopes)

/-- Evaluate truth values in turn until one differs from `unit`; `i` counts those before. -/
def settle (name : String) (unit : Bool) (scopes : Scopes) :
    (i : Nat) → List (Meaning σ) → EvalM σ Bool
  | _, [] => return unit
  | i, m :: ms => do
    let b ← Host.lift (truth name i (← m.value scopes))
    if b == unit then settle name unit scopes (i + 1) ms else return b

def items (name : String) (scopes : Scopes) (source : Meaning σ) : EvalM σ (List Json) := do
  Host.lift (itemsOf name 0 (← source.value scopes))

def refuseCount (name : String) (args : List (Meaning σ)) (least : Nat) (most : Option Nat) :
    EvalM σ Json :=
  throw (.argumentCount name (Args.rangeText least most) args.length)

/-- The branch that a condition takes; the other is only looked at. -/
def conditional (h : Host σ) (name : String) (scopes : Scopes) (c t e : Meaning σ) :
    EvalM σ Json := do
  if ← Host.lift (truth name 0 (← c.value scopes)) then
    remarkUnknown h e.expr
    t.value scopes
  else
    remarkUnknown h t.expr
    e.value scopes

def lambdaVariable (scopes : Scopes) (m : Meaning σ) : EvalM σ Json := do
  match ← m.value scopes with
  | .str name =>
    match scopes.find? name with
    | some v => return v
    | none => throw (.unknownLambdaVariable name)
  | v => throw (.mismatch "argument 1 of 'lambdaVariables'" "string" v)

def map (name : String) (scopes : Scopes) (source f : Meaning σ) : EvalM σ Json := do
  let xs ← items name scopes source
  let parts ← Host.lift (lambdaParts name 1 f.expr)
  return .arr (← xs.mapM fun x => f.apply parts scopes [x])

def filter (name : String) (scopes : Scopes) (source f : Meaning σ) : EvalM σ Json := do
  let xs ← items name scopes source
  let parts ← Host.lift (lambdaParts name 1 f.expr)
  return .arr (← xs.filterM fun x => do
    Host.lift (verdict "filter" (← f.apply parts scopes [x])))

def reduce (name : String) (scopes : Scopes) (source start f : Meaning σ) : EvalM σ Json := do
  let xs ← items name scopes source
  let acc ← start.value scopes
  let parts ← Host.lift (lambdaParts name 2 f.expr)
  xs.foldlM (fun acc x => f.apply parts scopes [acc, x]) acc

def sort (name : String) (scopes : Scopes) (source f : Meaning σ) : EvalM σ Json := do
  let xs ← items name scopes source
  let parts ← Host.lift (lambdaParts name 1 f.expr)
  return .arr (← Sort.sort (fun x y => do
    Host.lift (verdict "sort" (← f.apply parts scopes [x, y]))) xs)

def special (h : Host σ) (form : Catalog.SpecialForm) (name : String) (args : List (Meaning σ))
    (scopes : Scopes) : EvalM σ Json :=
  match form, args with
  | .conditional, [c, t, e] => conditional h name scopes c t e
  | .conditional, args => refuseCount name args 3 (some 3)
  | .conjunction, c :: d :: rest => return .bool (← settle name true scopes 0 (c :: d :: rest))
  | .conjunction, args => refuseCount name args 2 none
  | .disjunction, c :: d :: rest => return .bool (← settle name false scopes 0 (c :: d :: rest))
  | .disjunction, args => refuseCount name args 2 none
  | .lambda, _ =>
    throw (.invalidArgument "lambda" "a lambda can only be passed to map, filter, reduce or sort")
  | .lambdaVariables, [m] => lambdaVariable scopes m
  | .lambdaVariables, args => refuseCount name args 1 (some 1)
  | .map, [source, f] => map name scopes source f
  | .map, args => refuseCount name args 2 (some 2)
  | .filter, [source, f] => filter name scopes source f
  | .filter, args => refuseCount name args 2 (some 2)
  | .reduce, [source, start, f] => reduce name scopes source start f
  | .reduce, args => refuseCount name args 3 (some 3)
  | .sort, [source, f] => sort name scopes source f
  | .sort, args => refuseCount name args 2 (some 2)

def call (h : Host σ) (ns : Option String) (name : String) (args : List (Meaning σ)) (span : Span)
    (scopes : Scopes) : EvalM σ Json :=
  match ns with
  | some ns => do h.userFunction ns name (← values scopes args)
  | none =>
    match Catalog.lookup? σ name with
    | none => throw (.unknownFunction name span.start)
    | some (.value f) => do Host.lift (f ⟨name, ← values scopes args⟩)
    | some (.asking f) => do f h ⟨name, ← values scopes args⟩
    | some (.special form) => special h form name args scopes

end Meaning

def integerValue (literal : String) : Except ExprError Json :=
  match Integer.int64 literal.toList with
  | .ok n => .ok (.int n)
  | .error _ => .error (.numericOverflow ("integer literal " ++ literal))

def leaf (e : Expr) (r : Except ExprError Json) : Meaning σ :=
  ⟨e, fun _ => Host.lift r, fun _ => throw (.invalidArgument "lambda" "missing body")⟩

mutual

def meaning (h : Host σ) : Expr → Meaning σ
  | .str s => leaf (.str s) (.ok (.str s))
  | .int literal span => leaf (.int literal span) (integerValue literal)
  | .bool b => leaf (.bool b) (.ok (.bool b))
  | .null => leaf .null (.ok .null)
  | .property target name span =>
    let t := meaning h target
    { leaf (.property target name span) (.ok .null) with
      value := fun scopes => do Host.lift (propertyOf (← t.value scopes) name) }
  | .index target i span =>
    let t := meaning h target
    let m := meaning h i
    { leaf (.index target i span) (.ok .null) with
      value := fun scopes => do
        let v ← t.value scopes
        Host.lift (elementOf v (← m.value scopes)) }
  | .call ns name args span =>
    let ms := meanings h args
    { expr := .call ns name args span
      value := Meaning.call h ns name ms span
      body := fun scopes =>
        match ms.getLast? with
        | some m => m.value scopes
        | none => throw (.invalidArgument "lambda" "missing body") }

def meanings (h : Host σ) : List Expr → List (Meaning σ)
  | [] => []
  | e :: es => meaning h e :: meanings h es

end

def eval (h : Host σ) (scopes : Scopes) (e : Expr) : EvalM σ Json := (meaning h e).value scopes

end Expr

class Reading where
  parse : String → Except Expr.SyntaxError TemplateString

instance Reading.standard : Reading := ⟨TemplateString.parse⟩

/-- The value of a string of a template: a literal is itself, an expression is evaluated. -/
def TemplateString.eval [Reading] {σ : Type} (h : Host σ) (s : String) : EvalM σ Json :=
  match Reading.parse s with
  | .error e => throw (.parse e)
  | .ok (.literal text) => return .str text
  | .ok (.expression e) => Expr.eval h [] e

end ResourceTemplate
