import ResourceTemplate.Catalog.Collections
import ResourceTemplate.Catalog.Surroundings
import ResourceTemplate.Catalog.Texts

namespace ResourceTemplate.Catalog

/-- The functions that control the evaluation of their arguments. -/
inductive SpecialForm where
  | conditional
  | conjunction
  | disjunction
  | lambda
  | lambdaVariables
  | map
  | filter
  | reduce
  | sort
deriving DecidableEq, Repr

def specialForms : List (String × SpecialForm) :=
  [("if", .conditional), ("and", .conjunction), ("or", .disjunction), ("lambda", .lambda),
   ("lambdavariables", .lambdaVariables), ("map", .map), ("filter", .filter), ("reduce", .reduce),
   ("sort", .sort)]

def pureFunctions : List (String × Pure) :=
  Logic.functions ++ Arithmetic.functions ++ Collections.functions ++ Texts.functions ++
    Surroundings.pureFunctions

inductive Entry (σ : Type) where
  | value (f : Pure)
  | asking (f : Asking σ)
  | special (form : SpecialForm)

/-- The entry of a name; every name that begins with `list` is a function. -/
def lookup? (σ : Type) (name : String) : Option (Entry σ) :=
  let key := Name.fold name
  match specialForms.lookup key with
  | some form => some (.special form)
  | none =>
    match pureFunctions.lookup key with
    | some f => some (.value f)
    | none =>
      match (Surroundings.functions (σ := σ)).lookup key with
      | some f => some (.asking f)
      | none => if "list".toList.isPrefixOf key.toList then some (.value Surroundings.list) else none

def isKnown (name : String) : Bool := (lookup? Unit name).isSome

def names : List String :=
  let all := specialForms.map Prod.fst ++ pureFunctions.map Prod.fst ++
    (Surroundings.functions (σ := Unit)).map Prod.fst
  (Collections.sortEntries (all.map fun n => (n, .null))).map Prod.fst

end ResourceTemplate.Catalog
