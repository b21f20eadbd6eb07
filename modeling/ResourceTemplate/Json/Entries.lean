import ResourceTemplate.Text.Name

namespace ResourceTemplate

abbrev Entries (α : Type) := List (String × α)

namespace Entries

variable {α : Type}

def keys (es : Entries α) : List String := es.map Prod.fst

def get? (es : Entries α) (key : String) : Option α :=
  (es.find? fun e => e.1 == key).map Prod.snd

def has (es : Entries α) (key : String) : Bool := es.any fun e => e.1 == key

/-- The spelling under which a name is stored: its own, else the first one that differs in case. -/
def spelling? (es : Entries α) (name : String) : Option String :=
  if es.has name then some name
  else (es.find? fun e => Name.same e.1 name).map Prod.fst

/-- The value of a name: under its own spelling, else under the first that differs in case. -/
def getNamed? (es : Entries α) (name : String) : Option α :=
  match es.get? name with
  | some v => some v
  | none => (es.find? fun e => Name.same e.1 name).map Prod.snd

def replace (es : Entries α) (key : String) (value : α) : Entries α :=
  es.map fun e => if e.1 == key then (e.1, value) else e

/-- Write a name: an existing one keeps its place, a new one comes last. -/
def insert (es : Entries α) (key : String) (value : α) : Entries α :=
  if es.has key then es.replace key value else es ++ [(key, value)]

def erase (es : Entries α) (key : String) : Entries α := es.filter fun e => e.1 != key

/-- Remove a name; the last entry moves into its place. -/
def swapErase (es : Entries α) (key : String) : Entries α :=
  match es.getLast? with
  | none => es
  | some last =>
    if last.1 == key then es.dropLast
    else if es.has key then es.dropLast.map fun e => if e.1 == key then last else e
    else es

/-- Each name once: its first place and its last value. -/
def ofList (es : List (String × α)) : Entries α :=
  es.foldl (fun acc e => acc.insert e.1 e.2) []

end Entries
end ResourceTemplate
