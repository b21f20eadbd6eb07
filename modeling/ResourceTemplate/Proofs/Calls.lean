import ResourceTemplate.Expr.Reader
import ResourceTemplate.Json.Basic
import ResourceTemplate.Template.Basic

namespace ResourceTemplate

open Expr (CallSite)

def TemplateString.calls (s : String) : List CallSite :=
  match TemplateString.parse s with
  | .ok (.expression e) => e.calls
  | _ => []

mutual

def Json.calls : Json → List CallSite
  | .str s => TemplateString.calls s
  | .arr items => itemsCalls items
  | .obj members => membersCalls members
  | _ => []

def itemsCalls : List Json → List CallSite
  | [] => []
  | v :: vs => v.calls ++ itemsCalls vs

def membersCalls : List (String × Json) → List CallSite
  | [] => []
  | (k, v) :: rest => TemplateString.calls k ++ (v.calls ++ membersCalls rest)

end

mutual

def Json.texts : Json → List String
  | .str s => [s]
  | .arr items => itemsTexts items
  | .obj members => membersTexts members
  | _ => []

def itemsTexts : List Json → List String
  | [] => []
  | v :: vs => v.texts ++ itemsTexts vs

def membersTexts : List (String × Json) → List String
  | [] => []
  | (k, v) :: rest => k :: (v.texts ++ membersTexts rest)

end

mutual

theorem Json.calls_eq_flatMap : (v : Json) → v.calls = v.texts.flatMap TemplateString.calls
  | .str _ => (List.append_nil _).symm
  | .arr items => itemsCalls_eq_flatMap items
  | .obj members => membersCalls_eq_flatMap members
  | .null => rfl
  | .bool _ => rfl
  | .num _ => rfl

theorem itemsCalls_eq_flatMap : (vs : List Json) →
    itemsCalls vs = (itemsTexts vs).flatMap TemplateString.calls
  | [] => rfl
  | v :: vs => by
    rw [itemsCalls, itemsTexts, List.flatMap_append, v.calls_eq_flatMap, itemsCalls_eq_flatMap vs]

theorem membersCalls_eq_flatMap : (es : List (String × Json)) →
    membersCalls es = (membersTexts es).flatMap TemplateString.calls
  | [] => rfl
  | (k, v) :: es => by
    rw [membersCalls, membersTexts, List.flatMap_cons, List.flatMap_append, v.calls_eq_flatMap,
      membersCalls_eq_flatMap es]

end

theorem Json.texts_of_mem_items {vs : List Json} {v : Json} (h : v ∈ vs) : v.texts ⊆ itemsTexts vs := by
  induction vs with
  | nil => cases h
  | cons w vs ih =>
    rcases List.mem_cons.mp h with rfl | h
    · exact List.subset_append_left _ _
    · exact List.subset_append_of_subset_right _ (ih h)

/-- A selection of functions: of the built-in ones by their names in small letters, and of those that a
template defines. -/
structure Callees where
  builtIn : String → Prop
  defined : (ns name : String) → Prop

namespace Callees

def all : Callees := ⟨fun _ => True, fun _ _ => True⟩

def Has (C : Callees) (c : CallSite) : Prop :=
  match c.ns with
  | none => C.builtIn (Name.fold c.name)
  | some ns => C.defined ns c.name

def Cover (C : Callees) (calls : List CallSite) : Prop := ∀ c ∈ calls, C.Has c

variable {C : Callees} {cs ds : List CallSite}

theorem cover_all (cs : List CallSite) : all.Cover cs := by
  intro c hc
  unfold Has all
  split <;> trivial

theorem cover_append : C.Cover (cs ++ ds) ↔ C.Cover cs ∧ C.Cover ds := List.forall_mem_append

abbrev Admits (C : Callees) (s : String) : Prop := C.Cover (TemplateString.calls s)

theorem cover_calls {v : Json} : C.Cover v.calls ↔ ∀ s ∈ v.texts, C.Admits s := by
  rw [v.calls_eq_flatMap]
  exact List.forall_mem_flatMap

theorem cover_cons {c : CallSite} : C.Cover (c :: cs) ↔ C.Has c ∧ C.Cover cs := List.forall_mem_cons

theorem Cover.mono (h : C.Cover ds) (hs : cs ⊆ ds) : C.Cover cs := fun c hc => h c (hs hc)

end Callees

end ResourceTemplate

namespace ResourceTemplate.Template

open Expr (CallSite)

variable {t : Template} {names : List String} {cs : List CallSite}

/-- A built-in function is reached by calls if it is called, or by a function that is called. -/
inductive Reaches (t : Template) (name : String) : List CallSite → Prop
  | here {cs : List CallSite} {c : CallSite} : c ∈ cs → c.ns = none → Name.fold c.name = name →
    Reaches t name cs
  | within {cs : List CallSite} {c : CallSite} {ns : String} {f : UserFunction} : c ∈ cs → c.ns = some ns →
    t.function? ns c.name = some f → Reaches t name f.output.calls → Reaches t name cs

/-- Whether calls reach none of these built-in functions, given by their names in small letters. -/
def Avoids (t : Template) (names : List String) (cs : List CallSite) : Prop := ∀ name ∈ names, ¬ t.Reaches name cs

def avoiding (t : Template) (names : List String) : Callees where
  builtIn name := name ∉ names
  defined ns name := ∀ f, t.function? ns name = some f → t.Avoids names f.output.calls

namespace Avoids

theorem cover (h : t.Avoids names cs) : (t.avoiding names).Cover cs := by
  intro c hc
  unfold Callees.Has
  split
  · rename_i hns
    exact fun hname => h _ hname (.here hc hns rfl)
  · rename_i ns hns
    exact fun f hf name hname hreach => h name hname (.within hc hns hf hreach)

/-- Calls avoid what neither they nor the functions of the template call, where these call nothing but built-in
functions. -/
theorem of_functions
    (hf : ∀ f ∈ t.functions, ∀ c ∈ f.output.calls, c.ns = none ∧ Name.fold c.name ∉ names)
    (h : ∀ c ∈ cs, c.ns = none → Name.fold c.name ∉ names) : t.Avoids names cs := by
  intro name hname hreach
  cases hreach with
  | here hc hns hn => exact h _ hc hns (hn ▸ hname)
  | within hc hns hfound hreach =>
    have hbody := hf _ (List.mem_of_find?_eq_some hfound)
    cases hreach with
    | here hc hns hn => exact (hbody _ hc).2 (hn ▸ hname)
    | within hc hns => rw [(hbody _ hc).1] at hns; cases hns

end Avoids
end ResourceTemplate.Template
