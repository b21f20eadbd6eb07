import Mathlib.Data.List.Forall2
import ResourceTemplate.Proofs.Entries
import ResourceTemplate.Proofs.Outcome
import ResourceTemplate.Template.Reader

namespace ResourceTemplate

/-- What is sought in two lists whose items are related in turn, and alike to the search, is found in both or in
neither, and is related. -/
theorem find?_related {α β : Type} {R : α → β → Prop} {p : α → Bool} {q : β → Bool} {xs : List α} {ys : List β}
    (h : List.Forall₂ R xs ys) (hp : ∀ x y, R x y → p x = q y) : Option.Rel R (xs.find? p) (ys.find? q) := by
  induction h with
  | nil => exact .none
  | @cons x y xs ys hxy h ih =>
    rw [List.find?_cons, List.find?_cons, ← hp x y hxy]
    cases p x with
    | true => exact .some hxy
    | false => exact ih

namespace Template

mutual

/-- Whether a declaration is another whose keys that steer its expansion are in other cases, as may be those of
the declarations nested in it. No two keys of a declaration that is changed are the same up to case. -/
inductive Respelled : Json → Json → Prop
  | same (v : Json) : Respelled v v
  | declaration {es es' : Entries Json} (hd : es.Apart) (h : List.Forall₂ RespelledMember es es') :
    Respelled (.obj es) (.obj es')

/-- Whether a member of a declaration is another, spelled in another case if it steers the expansion. -/
inductive RespelledMember : String × Json → String × Json → Prop
  | same (e : String × Json) : RespelledMember e e
  | steering {key key' : String} (v : Json) (hk : isDeclarationKey key = true)
      (hs : Name.same key key' = true) : RespelledMember (key, v) (key', v)
  | nested {key key' : String} {items items' : List Json} (hk : Name.same key "resources" = true)
      (hs : Name.same key key' = true) (h : List.Forall₂ Respelled items items') :
      RespelledMember (key, .arr items) (key', .arr items')

end

/-- Whether the resources of a template are others whose declarations are respelled. -/
inductive RespelledSection : Json → Json → Prop
  | listed {items items' : List Json} (h : List.Forall₂ Respelled items items') :
    RespelledSection (.arr items) (.arr items')
  | keyed {members members' : Entries Json}
      (h : List.Forall₂ (fun e e' => e'.1 = e.1 ∧ Respelled e.2 e'.2) members members') :
    RespelledSection (.obj members) (.obj members')

def RespelledPart (e e' : String × Json) : Prop :=
  e'.1 = e.1 ∧ (e'.2 = e.2 ∨ Name.same e.1 "resources" = true ∧ RespelledSection e.2 e'.2)

/-- Whether a template is another whose declarations are respelled. -/
inductive Respells : Json → Json → Prop
  | intro {es es' : Entries Json} (h : List.Forall₂ RespelledPart es es') : Respells (.obj es) (.obj es')

/-! Declarations on their own. -/

theorem RespelledMember.fold_eq {e e' : String × Json} (h : RespelledMember e e') :
    Name.fold e.1 = Name.fold e'.1 := by
  cases h with
  | same e => rfl
  | steering v hk hs => exact Name.same_iff.mp hs
  | nested hk hs h => exact Name.same_iff.mp hs

theorem RespelledMember.value {e e' : String × Json} (h : RespelledMember e e')
    (hn : Name.fold e.1 ≠ Name.fold "resources") : e'.2 = e.2 := by
  cases h with
  | same e => rfl
  | steering v hk hs => rfl
  | nested hk hs h => exact absurd (Name.same_iff.mp hk) hn

theorem isDeclarationKey_congr {key key' : String} (h : Name.fold key = Name.fold key') :
    isDeclarationKey key = isDeclarationKey key' := by
  unfold isDeclarationKey Name.same
  rw [h]

theorem RespelledMember.eq_or_steering {e e' : String × Json} (h : RespelledMember e e') :
    e' = e ∨ isDeclarationKey e.1 = true := by
  cases h with
  | same e => exact .inl rfl
  | steering v hk hs => exact .inr hk
  | @nested key key' items items' hk hs h =>
    refine .inr ?_
    rw [isDeclarationKey_congr (Name.same_iff.mp hk)]
    decide

section
variable {es es' : Entries Json}

theorem keys_respelled (h : List.Forall₂ RespelledMember es es') :
    es'.keys.map Name.fold = es.keys.map Name.fold := by
  induction h with
  | nil => rfl
  | cons he h ih => exact congrArg₂ List.cons he.fold_eq.symm ih

theorem Respelled.apart (hd : es.Apart) (h : List.Forall₂ RespelledMember es es') : es'.Apart := by
  unfold Entries.Apart
  rw [keys_respelled h]
  exact hd

/-- The fields of a declaration but the declarations nested in it are the same. -/
theorem field?_respelled (hd : es.Apart) (h : List.Forall₂ RespelledMember es es') {name : String}
    (hn : Name.fold name ≠ Name.fold "resources") : field? es' name = field? es name := by
  have hfind := find?_related (p := fun e => Name.same e.1 name) (q := fun e => Name.same e.1 name) h
    fun e e' he => by unfold Name.same; rw [he.fold_eq]
  unfold field?
  rw [hd.getNamed?_eq, (Respelled.apart hd h).getNamed?_eq]
  generalize hf : es.find? (fun e => Name.same e.1 name) = found at hfind
  generalize es'.find? (fun e => Name.same e.1 name) = found' at hfind
  cases hfind with
  | none => rfl
  | @some e e' he =>
    have hfold := Name.same_iff.mp (by simpa using List.find?_some hf)
    exact congrArg some (he.value (hfold ▸ hn))

theorem body_respelled (h : List.Forall₂ RespelledMember es es') :
    (es'.filter fun e => !isDeclarationKey e.1) = es.filter fun e => !isDeclarationKey e.1 := by
  induction h with
  | nil => rfl
  | @cons e e' es es' he h ih =>
    have hkey : isDeclarationKey e'.1 = isDeclarationKey e.1 := isDeclarationKey_congr he.fold_eq.symm
    rw [List.filter_cons, List.filter_cons, ih, hkey]
    rcases he.eq_or_steering with rfl | hk
    · rfl
    · rw [hk]
      rfl

end

theorem readResource_respelled (pointer : String) (ordinal : Nat) (parent : Option Nat) {v v' : Json}
    (h : Respelled v v') : readResource pointer ordinal parent v' = readResource pointer ordinal parent v := by
  cases h with
  | same v => rfl
  | @declaration es es' hd h =>
    have hfield (name : String) (hn : Name.fold name ≠ Name.fold "resources") :
        field? es' name = field? es name := field?_respelled hd h hn
    have hobject {β : Type} (fs : Entries Json) (f : Entries Json → Read β) : (.ok fs >>= f) = f fs := rfl
    unfold readResource stringField?
    rw [objectAt, objectAt, hobject, hobject, body_respelled h, hfield "type" (by decide), hfield "copy" (by decide),
      hfield "dependsOn" (by decide), hfield "condition" (by decide), hfield "existing" (by decide)]

/-! Declarations with those nested in them. -/

/-- A member of declarations keeps its items apart from their spelling. -/
theorem RespelledMember.items {key : String} {items : List Json} {e' : String × Json}
    (h : RespelledMember (key, .arr items) e') :
    ∃ items', e'.2 = .arr items' ∧ List.Forall₂ Respelled items items' := by
  have hsame : List.Forall₂ Respelled items items := List.forall₂_same.mpr fun v _ => .same v
  cases h with
  | same => exact ⟨items, rfl, hsame⟩
  | steering _ hk hs => exact ⟨items, rfl, hsame⟩
  | nested hk hs h => exact ⟨_, rfl, h⟩

theorem isNested_eq {es : Entries Json} (hd : es.Apart) {e : String × Json} (he : e ∈ es) :
    isNested es e.1 = Name.same e.1 "resources" := by
  unfold isNested
  rw [Bool.eq_iff_iff, beq_iff_eq, hd.spelling?_eq_some_iff he, Name.same_iff]

mutual

theorem flatten_respelled (pointer : String) (ordinal : Nat) (parent : Option ResourceDeclaration) :
    (v : Json) → {v' : Json} → Respelled v v' →
    flatten pointer ordinal parent v' = flatten pointer ordinal parent v
  | .obj es, v', h => by
    have hown := readResource_respelled pointer ordinal (parent.map (·.ordinal)) h
    cases h with
    | same => rfl
    | @declaration _ es' hd h =>
      unfold flatten
      rw [hown]
      refine congrArg _ (funext fun own => ?_)
      dsimp only
      rw [flattenNested_respelled pointer (ordinal + 1) _ hd (Respelled.apart hd h) es
        (fun _ he => he) (fun _ he => he) h]
  | .arr _, _, h => by
    cases h
    rfl
  | .null, _, h => by
    cases h
    rfl
  | .bool _, _, h => by
    cases h
    rfl
  | .num _, _, h => by
    cases h
    rfl
  | .str _, _, h => by
    cases h
    rfl
termination_by structural v => v

theorem flattenNested_respelled (pointer : String) (ordinal : Nat) (own : ResourceDeclaration)
    {all all' : Entries Json} (hd : all.Apart) (hd' : all'.Apart) :
    (es : List (String × Json)) → {es' : List (String × Json)} → es ⊆ all → es' ⊆ all' →
    List.Forall₂ RespelledMember es es' →
    flattenNested pointer ordinal own all' es' = flattenNested pointer ordinal own all es
  | [], _, _, _, h => by
    cases h
    rfl
  | (k, v) :: rest, es', ha, ha', h => by
    cases h with
    | @cons _ e' _ rest' he h =>
      obtain ⟨k', w⟩ := e'
      obtain ⟨hmem, hrest⟩ := List.cons_subset.mp ha
      obtain ⟨hmem', hrest'⟩ := List.cons_subset.mp ha'
      have hfold : Name.fold k = Name.fold k' := he.fold_eq
      have hnested : isNested all' k' = isNested all k := by
        rw [isNested_eq hd' hmem', isNested_eq hd hmem, Name.same, Name.same, hfold]
      unfold flattenNested
      rw [hnested]
      split
      · cases v with
        | arr children =>
          obtain ⟨children', rfl, hc⟩ := he.items
          exact flattenAll_respelled _ ordinal (some own) 0 children hc
        | _ => cases he <;> rfl
      · exact flattenNested_respelled pointer ordinal own hd hd' rest hrest hrest' h
termination_by structural es => es

theorem flattenAll_respelled (base : String) (ordinal : Nat) (parent : Option ResourceDeclaration) (i : Nat) :
    (vs : List Json) → {vs' : List Json} → List.Forall₂ Respelled vs vs' →
    flattenAll base ordinal parent i vs' = flattenAll base ordinal parent i vs
  | [], _, h => by
    cases h
    rfl
  | v :: vs, _, h => by
    cases h with
    | @cons _ v' _ vs' hv h =>
      unfold flattenAll
      rw [flatten_respelled _ ordinal parent v hv]
      refine congrArg _ (funext fun block => ?_)
      rw [flattenAll_respelled base (ordinal + block.length) parent (i + 1) vs h]
termination_by structural vs => vs

end

/-! Templates. -/

theorem readKeyed_respelled (ordinal : Nat) {members members' : Entries Json}
    (h : List.Forall₂ (fun e e' => e'.1 = e.1 ∧ Respelled e.2 e'.2) members members') :
    readKeyed ordinal members' = readKeyed ordinal members := by
  induction h generalizing ordinal with
  | nil => rfl
  | @cons e e' es es' he h ih =>
    obtain ⟨name, v⟩ := e
    obtain ⟨name', v'⟩ := e'
    obtain ⟨rfl, hv⟩ := he
    unfold readKeyed
    rw [readResource_respelled _ ordinal none hv, ih]

/-- The value of a name in a template is the same in the other, but for the declarations in its resources. -/
theorem field?_related {es es' : Entries Json} (h : List.Forall₂ RespelledPart es es') (name : String) :
    Option.Rel (fun v v' => v' = v ∨ Name.fold name = Name.fold "resources" ∧ RespelledSection v v')
      (field? es name) (field? es' name) := by
  have hvalue {p : String × Json → Bool} (hp : ∀ e e', RespelledPart e e' → p e = p e')
      (hname : ∀ e, p e = true → Name.fold e.1 = Name.fold name) :
      Option.Rel (fun v v' => v' = v ∨ Name.fold name = Name.fold "resources" ∧ RespelledSection v v')
        ((es.find? p).map Prod.snd) ((es'.find? p).map Prod.snd) := by
    have hfind := find?_related h hp
    generalize hf : es.find? p = found at hfind
    generalize es'.find? p = found' at hfind
    cases hfind with
    | none => exact .none
    | some he =>
      have hfold := hname _ (List.find?_some hf)
      exact .some (he.2.imp_right fun hs => ⟨hfold ▸ Name.same_iff.mp hs.1, hs.2⟩)
  have hexact := hvalue (p := fun e => e.1 == name) (fun e e' he => by rw [he.1]) fun e he => by
    rw [beq_iff_eq.mp he]
  have hsame := hvalue (p := fun e => Name.same e.1 name) (fun e e' he => by rw [he.1]) fun e he =>
    Name.same_iff.mp he
  unfold field? Entries.getNamed? Entries.get?
  generalize (es.find? fun e => e.1 == name).map Prod.snd = found at hexact
  generalize (es'.find? fun e => e.1 == name).map Prod.snd = found' at hexact
  cases hexact with
  | none => exact hsame
  | some hv => exact .some hv

def readFunctionSection : Option Json → Read (List UserFunction)
  | none => .ok []
  | some .null => .ok []
  | some (.arr items) => readFunctions 0 items
  | some _ => malformed "/functions" "must be an array"

def readResourceSection : Option Json → Read (List ResourceDeclaration × Bool)
  | none => .ok ([], false)
  | some .null => .ok ([], false)
  | some (.arr items) => (flattenAll "/resources/" 0 none 0 items).map fun ds => (ds, false)
  | some (.obj members) => (readKeyed 0 members).map fun ds => (ds, true)
  | some _ => malformed "/resources" "must be an array or an object"

theorem ofJson_obj (es : Entries Json) : ofJson (.obj es) = do
    let parameters ← (← objectSection es "parameters").mapM fun e => readParameter e.1 e.2
    let vars ← objectSection es "variables"
    let functions ← readFunctionSection (field? es "functions")
    let resources ← readResourceSection (field? es "resources")
    let outputs ← (← objectSection es "outputs").mapM fun e => readOutput e.1 e.2
    return {
      schema := stringField? es "$schema"
      scopeLevel := ((stringField? es "$schema").map ScopeLevel.ofSchema).getD .resourceGroup
      languageVersion := stringField? es "languageVersion"
      contentVersion := stringField? es "contentVersion"
      parameters
      vars
      functions
      resources := resources.1
      outputs
      symbolic := resources.2
      raw := .obj es } := by
  unfold ofJson
  refine congrArg (objectSection es "parameters" >>= ·) (funext fun parameterSection => ?_)
  refine congrArg (_ >>= ·) (funext fun parameters => ?_)
  refine congrArg (objectSection es "variables" >>= ·) (funext fun vars => ?_)
  extract_lets withFunctions
  refine .trans (b := readFunctionSection (field? es "functions") >>= withFunctions) ?_
    (congrArg (_ >>= ·) (funext fun functions => ?_))
  · cases field? es "functions" with
    | none => rfl
    | some v => cases v <;> rfl
  · unfold withFunctions
    cases field? es "resources" with
    | none => rfl
    | some v =>
      cases v with
      | arr items =>
        dsimp only [readResourceSection]
        cases flattenAll "/resources/" 0 none 0 items <;> rfl
      | obj members =>
        dsimp only [readResourceSection]
        cases readKeyed 0 members <;> rfl
      | _ => rfl

theorem readResourceSection_respelled {v v' : Json} (h : RespelledSection v v') :
    readResourceSection (some v') = readResourceSection (some v) := by
  cases h with
  | listed h => rw [readResourceSection, readResourceSection, flattenAll_respelled _ _ _ _ _ h]
  | keyed h => rw [readResourceSection, readResourceSection, readKeyed_respelled _ h]

/-- A template is read with its declarations respelled as it is without, or malformed in the same way. What is read
tells them apart only as the template that was given. -/
theorem ofJson_respelled {v v' : Json} (h : Respells v v') :
    ofJson v' = (ofJson v).map fun t => { t with raw := v' } := by
  obtain @⟨es, es', h⟩ := h
  have hfield (name : String) (hn : Name.fold name ≠ Name.fold "resources") :
      field? es' name = field? es name := by
    have hrel := field?_related h name
    generalize field? es name = found at hrel
    generalize field? es' name = found' at hrel
    cases hrel with
    | none => rfl
    | some hv => rw [hv.resolve_right fun hs => hn hs.1]
  have hresources : readResourceSection (field? es' "resources") = readResourceSection (field? es "resources") := by
    have hrel := field?_related h "resources"
    generalize field? es "resources" = found at hrel
    generalize field? es' "resources" = found' at hrel
    cases hrel with
    | none => rfl
    | some hv =>
      rcases hv with rfl | ⟨-, hs⟩
      · rfl
      · exact readResourceSection_respelled hs
  -- the change of what is read goes through its sections
  have hmap {α β γ : Type} (f : β → γ) (m : Read α) (k : α → Read β) :
      (m >>= k).map f = m >>= fun a => (k a).map f := by
    cases m <;> rfl
  rw [ofJson_obj, ofJson_obj, hresources]
  unfold stringField? objectSection
  rw [hfield "$schema" (by decide), hfield "parameters" (by decide),
    hfield "variables" (by decide), hfield "functions" (by decide), hfield "outputs" (by decide),
    hfield "languageVersion" (by decide), hfield "contentVersion" (by decide)]
  simp only [hmap]
  rfl

end Template
end ResourceTemplate
