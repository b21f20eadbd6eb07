import ResourceTemplate.Text.Name

namespace ResourceTemplate

structure Span where
  start : Nat
  stop : Nat
deriving DecidableEq, Repr, Inhabited

inductive Expr where
  /-- A string literal, its quotes undone. -/
  | str (text : String)
  /-- An integer literal as written; its range is checked when it is evaluated. -/
  | int (literal : String) (span : Span)
  | bool (value : Bool)
  | null
  /-- A call of a built-in function, or with a namespace of a user-defined one. -/
  | call (ns : Option String) (name : String) (args : List Expr) (span : Span)
  /-- A property by name. -/
  | property (target : Expr) (name : String) (span : Span)
  /-- An element or a property by index. -/
  | index (target : Expr) (index : Expr) (span : Span)

namespace Expr

instance : Inhabited Expr := ⟨.null⟩

def span? : Expr → Option Span
  | .int _ span => some span
  | .call _ _ _ span => some span
  | .property _ _ span => some span
  | .index _ _ span => some span
  | _ => none

structure CallSite where
  ns : Option String
  name : String
  span : Span

def CallSite.qualifiedName (c : CallSite) : String :=
  match c.ns with
  | some ns => ns ++ "." ++ c.name
  | none => c.name

def CallSite.isNamed (c : CallSite) (name : String) : Bool :=
  c.ns.isNone && Name.same c.name name

mutual

def calls : Expr → List CallSite
  | .call ns name args span => ⟨ns, name, span⟩ :: callsOf args
  | .property target _ _ => calls target
  | .index target i _ => calls target ++ calls i
  | _ => []

def callsOf : List Expr → List CallSite
  | [] => []
  | e :: es => calls e ++ callsOf es

end

end Expr

/-- A string of a template: text to use as it is, or an expression. -/
inductive TemplateString where
  | literal (text : String)
  | expression (expr : Expr)

end ResourceTemplate
