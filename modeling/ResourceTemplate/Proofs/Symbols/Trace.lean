import Mathlib.Data.List.Induction
import ResourceTemplate.Proofs.Symbols
import ResourceTemplate.Proofs.Text.Pieces

namespace ResourceTemplate.SymbolTable

inductive Call where
  | declareArray (name : String)
  | declareObject (name : String) (initial : Option String)
  | configure (name id : String)
deriving DecidableEq, Repr

namespace Call

def on (t : SymbolTable) : Call → Except SymbolFault SymbolTable
  | .declareArray name => t.declareArray name
  | .declareObject name initial => t.declareObject name initial
  | .configure name id => t.configure name id

def name : Call → String
  | .declareArray name => name
  | .declareObject name _ => name
  | .configure name _ => name

def isAbout (name : String) (c : Call) : Bool := Name.same c.name name

def kind? : Call → Option SymbolKind
  | .declareArray _ => some .array
  | .declareObject .. => some .object
  | .configure .. => none

def id? : Call → Option String
  | .declareArray _ => none
  | .declareObject _ initial => initial
  | .configure _ id => some id

def configured? : Call → Option String
  | .configure _ id => some id
  | _ => none

end Call

/-- The table after a call. One that is refused leaves it as it is. -/
def after (t : SymbolTable) (c : Call) : SymbolTable :=
  match c.on t with
  | .ok u => u
  | .error _ => t

def replay (calls : List Call) : SymbolTable := calls.foldl after {}

@[simp] theorem replay_concat (calls : List Call) (c : Call) :
    replay (calls ++ [c]) = (replay calls).after c := by
  simp [replay]

/-- Why a table refuses a call: the symbol is of another kind, it is an object that has an id, or nothing is
declared that could be bound. -/
inductive Refuses (t : SymbolTable) (c : Call) : SymbolFault → Prop
  | conflict {s : DeploymentSymbol} {kind : SymbolKind} (hs : t.find? c.name = some s)
      (hk : c.kind? = some kind) (hne : s.kind ≠ kind) :
      Refuses t c (.kindConflict s.name s.kind kind)
  | bound {name old id : String} (hs : t.find? c.name = some (.object name (some old)))
      (hi : c.id? = some id) : Refuses t c (.alreadyBound name old)
  | undeclared (hs : t.find? c.name = none) (hk : c.kind? = none) : Refuses t c (.unknown c.name)

inductive Makes (c : Call) : Option DeploymentSymbol → DeploymentSymbol → Prop
  | array (h : c.kind? = some .array) : Makes c none (.array c.name [])
  | object (h : c.kind? = some .object) : Makes c none (.object c.name c.id?)
  | again {s : DeploymentSymbol} (hk : c.kind? = some s.kind) (hi : c.id? = none) : Makes c (some s) s
  | another {name id : String} {ids : List String} (hi : c.configured? = some id) :
      Makes c (some (.array name ids)) (.array name (ids ++ [id]))
  | first {name id : String} (hi : c.id? = some id) :
      Makes c (some (.object name none)) (.object name (some id))

def ChangesTo (t u : SymbolTable) (name : String) (s : DeploymentSymbol) : Prop :=
  ∀ other, u.find? other = if Name.same other name then some s else t.find? other

theorem changesTo_put (t : SymbolTable) (name : String) (s : DeploymentSymbol) :
    ChangesTo t (t.put name s) name s := by
  intro other
  exact find?_put t name other s

theorem changesTo_self {t : SymbolTable} {name : String} {s : DeploymentSymbol}
    (hs : t.find? name = some s) : ChangesTo t t name s := by
  intro other
  split
  · rename_i h
    rw [find?_congr t h, hs]
  · rfl

theorem ChangesTo.find?_of_isAbout {t u : SymbolTable} {c : Call} {s : DeploymentSymbol} {name : String}
    (h : ChangesTo t u c.name s) (ha : c.isAbout name = true) : u.find? name = some s := by
  rw [h name, if_pos]
  rw [Name.same_comm]
  exact ha

/-- What a call can do: it is refused, or it changes the symbol of its name and no other. -/
inductive Answers (t : SymbolTable) (c : Call) : Except SymbolFault SymbolTable → Prop
  | refused {fault : SymbolFault} (h : Refuses t c fault) : Answers t c (.error fault)
  | makes {u : SymbolTable} {s : DeploymentSymbol} (hm : Makes c (t.find? c.name) s)
      (hu : ChangesTo t u c.name s) : Answers t c (.ok u)

/-- To bind a symbol that is there changes it, unless it is an object that has an id. -/
theorem configure_answers {t : SymbolTable} {c : Call} {s : DeploymentSymbol} {id : String}
    (hs : t.find? c.name = some s) (hi : c.id? = some id)
    (hc : s.kind = .array → c.configured? = some id) :
    Answers t c (t.configure c.name id) := by
  unfold configure
  rw [hs]
  cases s with
  | array name ids =>
    refine .makes (s := .array name (ids ++ [id])) ?_ (changesTo_put t c.name _)
    rw [hs]
    exact .another (hc rfl)
  | object name bound =>
    cases bound with
    | none =>
      refine .makes (s := .object name (some id)) ?_ (changesTo_put t c.name _)
      rw [hs]
      exact .first hi
    | some old => exact .refused (.bound hs hi)

theorem declareArray_answers (t : SymbolTable) (name : String) :
    Answers t (.declareArray name) (t.declareArray name) := by
  unfold declareArray
  cases hs : t.find? name with
  | none =>
    refine .makes ?_ (changesTo_put t name _)
    rw [Call.name, hs]
    exact .array rfl
  | some s =>
    dsimp only
    split
    · rename_i hk
      refine .makes ?_ (changesTo_self hs)
      rw [Call.name, hs]
      exact .again (congrArg some hk.symm) rfl
    · rename_i hk
      exact .refused (.conflict hs rfl hk)

theorem declareObject_answers (t : SymbolTable) (name : String) (initial : Option String) :
    Answers t (.declareObject name initial) (t.declareObject name initial) := by
  unfold declareObject
  cases hs : t.find? name with
  | none =>
    refine .makes ?_ (changesTo_put t name _)
    rw [Call.name, hs]
    exact .object rfl
  | some s =>
    dsimp only
    split
    · rename_i hk
      cases initial with
      | none =>
        refine .makes ?_ (changesTo_self hs)
        rw [Call.name, hs]
        exact .again (congrArg some hk.symm) rfl
      | some id =>
        exact configure_answers (c := .declareObject name (some id)) hs rfl (by simp [hk])
    · rename_i hk
      exact .refused (.conflict hs rfl hk)

theorem on_answers (t : SymbolTable) (c : Call) : Answers t c (c.on t) := by
  cases c with
  | declareArray name => exact declareArray_answers t name
  | declareObject name initial => exact declareObject_answers t name initial
  | configure name id =>
    cases hs : t.find? name with
    | none =>
      rw [Call.on, configure, hs]
      exact .refused (.undeclared hs rfl)
    | some s => exact configure_answers (c := .configure name id) hs rfl fun _ => rfl

theorem Makes.not_refuses {t : SymbolTable} {c : Call} {s : DeploymentSymbol} {fault : SymbolFault}
    (hm : Makes c (t.find? c.name) s) : ¬ Refuses t c fault := by
  intro hr
  cases hr with
  | conflict hs hk hne =>
    rw [hs] at hm
    cases hm with
    | again hk' _ => exact hne (Option.some.inj (hk'.symm.trans hk))
    | another hi =>
      cases c <;> cases hi
      cases hk
    | first hi =>
      cases c <;> cases hk <;> cases hi
      exact hne rfl
  | bound hs hi =>
    rw [hs] at hm
    cases hm with
    | again _ hn => exact absurd (hi.symm.trans hn) (by simp)
  | undeclared hs hk =>
    rw [hs] at hm
    cases hm with
    | array h => exact absurd (h.symm.trans hk) (by simp)
    | object h => exact absurd (h.symm.trans hk) (by simp)

theorem Refuses.unique {t : SymbolTable} {c : Call} {f g : SymbolFault} (hf : Refuses t c f)
    (hg : Refuses t c g) : f = g := by
  cases hf with
  | conflict hs hk hne =>
    cases hg with
    | conflict hs' hk' _ =>
      rw [hs] at hs'
      rw [hk] at hk'
      cases hs'
      cases hk'
      rfl
    | bound hs' hi' =>
      rw [hs] at hs'
      cases hs'
      cases c <;> cases hk <;> cases hi'
      exact absurd rfl hne
    | undeclared hs' _ => exact absurd (hs.symm.trans hs') (by simp)
  | bound hs hi =>
    cases hg with
    | conflict hs' hk' hne' =>
      rw [hs] at hs'
      cases hs'
      cases c <;> cases hk' <;> cases hi
      exact absurd rfl hne'
    | bound hs' _ =>
      rw [hs] at hs'
      cases hs'
      rfl
    | undeclared hs' _ => exact absurd (hs.symm.trans hs') (by simp)
  | undeclared hs hk =>
    cases hg with
    | conflict hs' _ _ => exact absurd (hs.symm.trans hs') (by simp)
    | bound hs' _ => exact absurd (hs.symm.trans hs') (by simp)
    | undeclared _ _ => rfl

/-- A call gives a fault exactly for the reason that the fault names. -/
theorem on_eq_error_iff {t : SymbolTable} {c : Call} {fault : SymbolFault} :
    c.on t = .error fault ↔ Refuses t c fault := by
  have ho := on_answers t c
  constructor
  · intro h
    rw [h] at ho
    cases ho with
    | refused hr => exact hr
  · intro hr
    cases hc : c.on t with
    | ok u =>
      rw [hc] at ho
      cases ho with
      | makes hm _ => exact absurd hr hm.not_refuses
    | error other =>
      rw [hc] at ho
      cases ho with
      | refused hr' => rw [hr'.unique hr]

theorem after_of_refuses {t : SymbolTable} {c : Call} {fault : SymbolFault} (h : Refuses t c fault) :
    t.after c = t := by
  rw [after, on_eq_error_iff.mpr h]

/-- The table after a call is the same, or another by what the call makes of its symbol. -/
theorem after_cases (t : SymbolTable) (c : Call) :
    (∃ fault, Refuses t c fault ∧ t.after c = t) ∨
      ∃ s, Makes c (t.find? c.name) s ∧ ChangesTo t (t.after c) c.name s := by
  have ho := on_answers t c
  cases hc : c.on t with
  | error fault =>
    rw [hc] at ho
    cases ho with
    | refused hr => exact .inl ⟨fault, hr, after_of_refuses hr⟩
  | ok u =>
    rw [hc] at ho
    cases ho with
    | makes hm hu =>
      refine .inr ⟨_, hm, ?_⟩
      rw [after, hc]
      exact hu

theorem find?_after_of_not_isAbout {t : SymbolTable} {c : Call} {name : String}
    (h : c.isAbout name = false) : (t.after c).find? name = t.find? name := by
  rcases after_cases t c with ⟨_, -, ht⟩ | ⟨s, -, hu⟩
  · rw [ht]
  · rw [hu name, if_neg]
    rw [Name.same_comm]
    simpa [Call.isAbout] using h

/-- What a symbol is by its first declaration and the later calls on its name. -/
structure Follows (s : DeploymentSymbol) (first : Call) (later : List Call) : Prop where
  name : s.name = first.name
  kind : first.kind? = some s.kind
  array : s.kind = .array → s.ids = later.filterMap Call.configured?
  object : s.kind = .object → s.ids = ((first :: later).filterMap Call.id?).head?.toList

theorem Makes.follows {c : Call} {s : DeploymentSymbol} (h : Makes c none s) : Follows s c [] := by
  cases h with
  | array h => exact ⟨rfl, h, fun _ => rfl, nofun⟩
  | object h =>
    refine ⟨rfl, h, nofun, fun _ => ?_⟩
    cases hi : c.id? <;> simp [DeploymentSymbol.ids, hi]

theorem configured?_of_kind? {c : Call} {kind : SymbolKind} (h : c.kind? = some kind) :
    c.configured? = none := by
  cases c with
  | declareArray name => rfl
  | declareObject name initial => rfl
  | configure name id => cases h

theorem id?_of_kind?_array {c : Call} (h : c.kind? = some .array) : c.id? = none := by
  cases c with
  | declareArray name => rfl
  | declareObject name initial => cases h
  | configure name id => cases h

namespace Follows

variable {s : DeploymentSymbol} {first c : Call} {later : List Call}

/-- A call that is refused leaves the symbol what it is by the calls on its name. -/
theorem refused {t : SymbolTable} {fault : SymbolFault} (h : Follows s first later)
    (hs : t.find? c.name = some s) (hr : Refuses t c fault) : Follows s first (later ++ [c]) := by
  refine ⟨h.name, h.kind, fun ha => ?_, fun ho => ?_⟩
  · rw [h.array ha, List.filterMap_append]
    cases hr with
    | conflict _ hk _ => simp [configured?_of_kind? hk]
    | bound hs' _ =>
      rw [hs] at hs'
      cases hs'
      cases ha
    | undeclared hs' _ => exact absurd (hs.symm.trans hs') (by simp)
  · have hids := h.object ho
    rw [← List.cons_append, List.filterMap_append]
    cases hr with
    | conflict hs' hk hne =>
      rw [hs] at hs'
      cases hs'
      rename_i kind
      -- of the two kinds it is the other
      cases kind with
      | array => simpa [id?_of_kind?_array hk] using hids
      | object => exact absurd ho hne
    | bound hs' hi =>
      rw [hs] at hs'
      cases hs'
      rw [hids]
      cases hf : (first :: later).filterMap Call.id? with
      | nil =>
        rw [hf] at hids
        cases hids
      | cons id ids => rfl
    | undeclared hs' _ => exact absurd (hs.symm.trans hs') (by simp)

/-- A call that is accepted makes of the symbol what it is by the calls on its name. -/
theorem makes {s' : DeploymentSymbol} (h : Follows s first later) (hm : Makes c (some s) s') :
    Follows s' first (later ++ [c]) := by
  cases hm with
  | again hk hi =>
    refine ⟨h.name, h.kind, fun ha => ?_, fun ho => ?_⟩
    · simpa [configured?_of_kind? hk] using h.array ha
    · rw [← List.cons_append, List.filterMap_append]
      simpa [hi] using h.object ho
  | another hi =>
    refine ⟨h.name, h.kind, fun ha => ?_, nofun⟩
    have hids := h.array rfl
    rw [List.filterMap_append, ← hids]
    simp [DeploymentSymbol.ids, hi]
  | first hi =>
    refine ⟨h.name, h.kind, nofun, fun ho => ?_⟩
    have hids := h.object rfl
    rw [← List.cons_append, List.filterMap_append]
    cases hf : (first :: later).filterMap Call.id? with
    | nil => simp [DeploymentSymbol.ids, hi]
    | cons id ids =>
      rw [hf] at hids
      cases hids

/-- After each further call the symbol of the name is what it is by the calls on it. -/
theorem after {t : SymbolTable} {name : String} (h : Follows s first later)
    (hs : t.find? name = some s) (ha : c.isAbout name = true) :
    ∃ s', (t.after c).find? name = some s' ∧ Follows s' first (later ++ [c]) := by
  have hc : t.find? c.name = some s := (find?_congr t ha).trans hs
  rcases after_cases t c with ⟨fault, hr, ht⟩ | ⟨s', hm, hu⟩
  · exact ⟨s, by rw [ht, hs], h.refused hc hr⟩
  · rw [hc] at hm
    exact ⟨s', hu.find?_of_isAbout ha, h.makes hm⟩

end Follows

theorem find?_replay_of_undeclared {name : String} {calls : List Call}
    (h : ∀ c ∈ calls, c.isAbout name = true → c.kind? = none) : (replay calls).find? name = none := by
  induction calls using List.reverseRecOn with
  | nil => rfl
  | append_singleton calls c ih =>
    have hn := ih fun c hc => h c (List.mem_append_left _ hc)
    rw [replay_concat]
    cases ha : c.isAbout name with
    | false => rw [find?_after_of_not_isAbout ha, hn]
    | true =>
      have hc : (replay calls).find? c.name = none := (find?_congr _ ha).trans hn
      have hk := h c (List.mem_append_right _ (List.mem_singleton_self c)) ha
      rw [after_of_refuses (.undeclared hc hk), hn]

theorem first_accepted {t : SymbolTable} {c : Call} (hn : t.find? c.name = none) (hk : c.kind? ≠ none) :
    ∃ u, c.on t = .ok u := by
  cases hc : c.on t with
  | ok u => exact ⟨u, rfl⟩
  | error fault =>
    cases on_eq_error_iff.mp hc with
    | conflict hs _ _ => exact absurd (hs.symm.trans hn) (by simp)
    | bound hs _ => exact absurd (hs.symm.trans hn) (by simp)
    | undeclared _ h => exact absurd h hk

/-- A symbol is what its first declaration and the later calls on its name make of it. -/
theorem find?_replay_of_declared {name : String} {before : List Call} {first : Call}
    (hb : ∀ c ∈ before, c.isAbout name = true → c.kind? = none) (ha : first.isAbout name = true)
    (hk : first.kind? ≠ none) (later : List Call) :
    ∃ s, (replay (before ++ first :: later)).find? name = some s ∧
      Follows s first (later.filter (Call.isAbout name)) := by
  induction later using List.reverseRecOn with
  | nil =>
    have hn := find?_replay_of_undeclared hb
    have hc : (replay before).find? first.name = none := (find?_congr _ ha).trans hn
    rw [replay_concat]
    rcases after_cases (replay before) first with ⟨fault, hr, -⟩ | ⟨s, hm, hu⟩
    · obtain ⟨u, ho⟩ := first_accepted hc hk
      rw [on_eq_error_iff.mpr hr] at ho
      cases ho
    · rw [hc] at hm
      exact ⟨s, hu.find?_of_isAbout ha, hm.follows⟩
  | append_singleton later c ih =>
    obtain ⟨s, hs, h⟩ := ih
    rw [← List.cons_append, ← List.append_assoc, replay_concat, List.filter_append]
    cases hc : c.isAbout name with
    | false =>
      rw [find?_after_of_not_isAbout hc]
      exact ⟨s, hs, by simpa [hc] using h⟩
    | true => simpa [hc] using h.after hs hc

theorem lookup_indexed (t : SymbolTable) {name : String} {i : Nat} (hn : '[' ∉ name.toList)
    (hi : i ≤ Integer.maxNat64) : t.lookup (indexed name i) = t.getId name (some i) := by
  rw [lookup, splitIndexed?_indexed hn hi]

/-- After whatever calls, a name that none of them declared has no symbol. One that was declared has the kind and the
spelling of its first declaration, which is accepted: as an array with the ids of all later bindings in turn, as an
object with the first id that it was given. A call is refused exactly if its symbol is of another kind, is an object
that has an id to which it gives one, or is not declared and to be bound; then the table stays as it is. What
`name[i]` refers to is the id of the name at the index. -/
theorem replay_follows (name : String) :
    (∀ calls : List Call, (∀ c ∈ calls, c.isAbout name = true → c.kind? = none) →
      (replay calls).find? name = none) ∧
    (∀ (before later : List Call) (first : Call),
      (∀ c ∈ before, c.isAbout name = true → c.kind? = none) → first.isAbout name = true →
      first.kind? ≠ none →
      (∃ u, first.on (replay before) = .ok u) ∧
        ∃ s, (replay (before ++ first :: later)).find? name = some s ∧
          Follows s first (later.filter (Call.isAbout name))) ∧
    (∀ (calls : List Call) (c : Call) (fault : SymbolFault),
      (c.on (replay calls) = .error fault ↔ Refuses (replay calls) c fault) ∧
        (Refuses (replay calls) c fault → replay (calls ++ [c]) = replay calls)) ∧
    (∀ (calls : List Call) (i : Nat), '[' ∉ name.toList → i ≤ Integer.maxNat64 →
      (replay calls).lookup (indexed name i) = (replay calls).getId name (some i)) := by
  refine ⟨fun calls => find?_replay_of_undeclared, ?_, ?_, fun calls i => lookup_indexed _⟩
  · intro before later first hb ha hk
    refine ⟨?_, find?_replay_of_declared hb ha hk later⟩
    have hn := find?_replay_of_undeclared hb
    exact first_accepted ((find?_congr _ ha).trans hn) hk
  · intro calls c fault
    refine ⟨on_eq_error_iff, fun hr => ?_⟩
    rw [replay_concat, after_of_refuses hr]

/-- Calls on an array and on an object. Some come too early, some conflict in kind, and one binds the object again. -/
def mixedCalls : List Call :=
  [.configure "nics" "/early", .declareArray "Nics", .declareObject "sa" (some "/sa"), .configure "NICS" "/0",
    .declareObject "nics" (some "/other"), .configure "SA" "/again", .declareArray "nics",
    .configure "nics" "/1"]

theorem replay_follows_mixedCalls :
    (∃ s, (replay mixedCalls).find? "nics" = some s ∧ s.name = "Nics" ∧ s.kind = .array ∧
      s.ids = ["/0", "/1"]) ∧
    (∃ s, (replay mixedCalls).find? "sa" = some s ∧ s.name = "sa" ∧ s.kind = .object ∧
      s.ids = ["/sa"]) ∧
    (replay mixedCalls).find? "vm" = none ∧
    (replay mixedCalls).lookup (indexed "nics" 1) = (replay mixedCalls).getId "nics" (some 1) ∧
    Refuses (replay mixedCalls) (.configure "SA" "/new") (.alreadyBound "sa" "/sa") ∧
    replay (mixedCalls ++ [.configure "SA" "/new"]) = replay mixedCalls := by
  obtain ⟨-, hn, -, hl⟩ := replay_follows "nics"
  obtain ⟨-, hs, hr, -⟩ := replay_follows "sa"
  obtain ⟨hv, -⟩ := replay_follows "vm"
  obtain ⟨-, s, hfs, h⟩ := hn (mixedCalls.take 1) (mixedCalls.drop 2) (.declareArray "Nics")
    (by decide +kernel) (by decide +kernel) (by decide +kernel)
  obtain ⟨-, o, hfo, k⟩ := hs (mixedCalls.take 2) (mixedCalls.drop 3)
    (.declareObject "sa" (some "/sa")) (by decide +kernel) (by decide +kernel) (by decide +kernel)
  have hsk : s.kind = .array := (Option.some.inj h.kind).symm
  have hok : o.kind = .object := (Option.some.inj k.kind).symm
  have hids : s.ids = ["/0", "/1"] := by
    rw [h.array hsk]
    decide +kernel
  have hid : o.ids = ["/sa"] := k.object hok
  have hbound : Refuses (replay mixedCalls) (.configure "SA" "/new") (.alreadyBound "sa" "/sa") :=
    (hr mixedCalls _ _).1.mp rfl
  exact ⟨⟨s, hfs, h.name, hsk, hids⟩, ⟨o, hfo, k.name, hok, hid⟩,
    hv mixedCalls (by decide +kernel), hl mixedCalls 1 (by decide +kernel) (by decide), hbound,
    (hr mixedCalls _ _).2 hbound⟩

end ResourceTemplate.SymbolTable
