import ResourceTemplate.Redaction

namespace ResourceTemplate

/-- A place in a value: the position of a member or item at each level. -/
abbrev Place := List Nat

namespace Json

@[elab_as_elim]
theorem inductionOn {motive : Json → Prop} (v : Json) (null : motive .null) (bool : ∀ b, motive (.bool b))
    (num : ∀ n, motive (.num n)) (str : ∀ s, motive (.str s))
    (arr : ∀ items, (∀ v ∈ items, motive v) → motive (.arr items))
    (obj : ∀ es : Entries Json, (∀ e ∈ es, motive e.2) → motive (.obj es)) : motive v :=
  @Json.rec motive (fun items => ∀ v ∈ items, motive v) (fun es => ∀ e ∈ es, motive e.2) (fun e => motive e.2)
    null bool num str arr obj (by simp) (fun _ _ hv hvs => List.forall_mem_cons.mpr ⟨hv, hvs⟩) (by simp)
    (fun _ _ he hes => List.forall_mem_cons.mpr ⟨he, hes⟩) (fun _ _ hv => hv) v

def child? : Json → Nat → Option (PathSegment × Json)
  | .arr items, i => items[i]?.map fun v => (.index i, v)
  | .obj es, i => es[i]?.map fun e => (.key e.1, e.2)
  | _, _ => none

def within? : Place → Json → Option Json
  | [], v => some v
  | i :: rest, v => (v.child? i).bind fun c => within? rest c.2

def pathTo : Place → Json → PropertyPath
  | [], _ => []
  | i :: rest, v =>
    match v.child? i with
    | some (step, w) => step :: pathTo rest w
    | none => []

/-- Whether a string stands at a place that is no placeholder of a secret. -/
def IsPlain (v : Json) (place : Place) : Prop :=
  ∃ s, v.within? place = some (.str s) ∧ Placeholder.isSecret s = false

theorem not_isPlain_nil {v : Json} (h : ∀ s, v ≠ .str s) : ¬ v.IsPlain [] := by
  rintro ⟨s, hs, -⟩
  exact h s (Option.some.inj hs)

mutual

/-- The value with the placeholder of a secret for every string at a place that is hit. -/
def hide (hit : Place → Bool) : Json → Json
  | .str s => .str (if hit [] then Placeholder.secret else s)
  | .arr items => .arr (hideItems hit 0 items)
  | .obj es => .obj (hideMembers hit 0 es)
  | v => v

def hideItems (hit : Place → Bool) (i : Nat) : List Json → List Json
  | [] => []
  | v :: vs => hide (fun place => hit (i :: place)) v :: hideItems hit (i + 1) vs

def hideMembers (hit : Place → Bool) (i : Nat) : List (String × Json) → List (String × Json)
  | [] => []
  | (key, v) :: es => (key, hide (fun place => hit (i :: place)) v) :: hideMembers hit (i + 1) es

end

theorem getElem?_hideItems (hit : Place → Bool) (n : Nat) (items : List Json) (i : Nat) :
    (hideItems hit n items)[i]? = items[i]?.map (hide fun place => hit ((n + i) :: place)) := by
  induction items generalizing n i with
  | nil => simp [hideItems]
  | cons v vs ih =>
    cases i with
    | zero => simp [hideItems]
    | succ i => simp [hideItems, ih, Nat.add_right_comm, Nat.add_assoc]

theorem getElem?_hideMembers (hit : Place → Bool) (n : Nat) (es : Entries Json) (i : Nat) :
    (hideMembers hit n es)[i]? =
      es[i]?.map fun e => (e.1, e.2.hide fun place => hit ((n + i) :: place)) := by
  induction es generalizing n i with
  | nil => simp [hideMembers]
  | cons e es ih =>
    obtain ⟨key, v⟩ := e
    cases i with
    | zero => simp [hideMembers]
    | succ i => simp [hideMembers, ih, Nat.add_right_comm, Nat.add_assoc]

theorem keys_hideMembers (hit : Place → Bool) (n : Nat) (es : Entries Json) :
    Entries.keys (hideMembers hit n es) = es.keys := by
  induction es generalizing n with
  | nil => rfl
  | cons e es ih => exact congrArg (e.1 :: ·) (ih (n + 1))

/-- What is hidden depends on the places of strings alone. -/
theorem hide_congr {p q : Place → Bool} {v : Json}
    (h : ∀ place s, v.within? place = some (.str s) → p place = q place) : v.hide p = v.hide q := by
  induction v using inductionOn generalizing p q with
  | null => rfl
  | bool b => rfl
  | num n => rfl
  | str s => rw [hide, hide, h [] s rfl]
  | arr items ih =>
    rw [hide, hide, arr.injEq]
    apply List.ext_getElem?
    intro i
    rw [getElem?_hideItems, getElem?_hideItems]
    apply Option.map_congr
    intro v hv
    rw [Nat.zero_add]
    refine ih v (List.mem_of_getElem? hv) fun place s hs => h (i :: place) s ?_
    rw [within?, child?, hv, Option.map_some, Option.bind_some, hs]
  | obj es ih =>
    rw [hide, hide, obj.injEq]
    apply List.ext_getElem?
    intro i
    rw [getElem?_hideMembers, getElem?_hideMembers]
    apply Option.map_congr
    intro e he
    rw [Nat.zero_add, Prod.mk.injEq]
    refine ⟨rfl, ih e (List.mem_of_getElem? he) fun place s hs => h (i :: place) s ?_⟩
    rw [within?, child?, he, Option.map_some, Option.bind_some, hs]

theorem hide_none (v : Json) : v.hide (fun _ => false) = v := by
  induction v using inductionOn with
  | null => rfl
  | bool b => rfl
  | num n => rfl
  | str s => rfl
  | arr items ih =>
    rw [hide, arr.injEq]
    apply List.ext_getElem?
    intro i
    rw [getElem?_hideItems]
    cases hv : items[i]? with
    | none => rfl
    | some v => exact congrArg some (ih v (List.mem_of_getElem? hv))
  | obj es ih =>
    rw [hide, obj.injEq]
    apply List.ext_getElem?
    intro i
    rw [getElem?_hideMembers]
    cases he : es[i]? with
    | none => rfl
    | some e => exact congrArg some (Prod.ext rfl (ih e (List.mem_of_getElem? he)))

theorem hide_hide (p q : Place → Bool) (v : Json) :
    (v.hide p).hide q = v.hide fun place => p place || q place := by
  induction v using inductionOn generalizing p q with
  | null => rfl
  | bool b => rfl
  | num n => rfl
  | str s =>
    rw [hide, hide, hide]
    cases p [] <;> cases q [] <;> rfl
  | arr items ih =>
    rw [hide, hide, hide, arr.injEq]
    apply List.ext_getElem?
    intro i
    simp only [getElem?_hideItems, Option.map_map]
    apply Option.map_congr
    intro v hv
    exact ih v (List.mem_of_getElem? hv) _ _
  | obj es ih =>
    rw [hide, hide, hide, obj.injEq]
    apply List.ext_getElem?
    intro i
    simp only [getElem?_hideMembers, Option.map_map]
    apply Option.map_congr
    intro e he
    exact Prod.ext rfl (ih e (List.mem_of_getElem? he) _ _)

theorem child?_hide (hit : Place → Bool) (v : Json) (i : Nat) :
    (v.hide hit).child? i = (v.child? i).map fun c => (c.1, c.2.hide fun rest => hit (i :: rest)) := by
  cases v with
  | arr items =>
    rw [hide, child?, child?, getElem?_hideItems, Nat.zero_add, Option.map_map, Option.map_map]
    rfl
  | obj es =>
    rw [hide, child?, child?, getElem?_hideMembers, Nat.zero_add, Option.map_map, Option.map_map]
    rfl
  | null => rfl
  | bool b => rfl
  | num n => rfl
  | str s => rfl

theorem within?_hide (hit : Place → Bool) (place : Place) (v : Json) :
    (v.hide hit).within? place = (v.within? place).map (hide fun rest => hit (place ++ rest)) := by
  induction place generalizing v hit with
  | nil => rfl
  | cons i rest ih =>
    rw [within?, within?, child?_hide]
    cases v.child? i with
    | none => rfl
    | some c => exact ih _ c.2

theorem pathTo_hide (hit : Place → Bool) (place : Place) (v : Json) :
    (v.hide hit).pathTo place = v.pathTo place := by
  induction place generalizing v hit with
  | nil => rfl
  | cons i rest ih =>
    rw [pathTo, pathTo, child?_hide]
    cases v.child? i with
    | none => rfl
    | some c => exact congrArg (c.1 :: ·) (ih _ c.2)

theorem hide_eq_str {hit : Place → Bool} {v : Json} {s : String} (h : v.hide hit = .str s) :
    ∃ t, v = .str t ∧ s = if hit [] then Placeholder.secret else t := by
  cases v with
  | str t =>
    rw [hide, str.injEq] at h
    exact ⟨t, rfl, h.symm⟩
  | arr items => simp [hide] at h
  | obj es => simp [hide] at h
  | null => cases h
  | bool b => cases h
  | num n => cases h

theorem hide_eq_obj {hit : Place → Bool} {v : Json} {fs : Entries Json} (h : v.hide hit = .obj fs) :
    ∃ es, v = .obj es ∧ fs = hideMembers hit 0 es := by
  cases v with
  | obj es =>
    rw [hide, obj.injEq] at h
    exact ⟨es, rfl, h.symm⟩
  | str t => simp [hide] at h
  | arr items => simp [hide] at h
  | null => cases h
  | bool b => cases h
  | num n => cases h

theorem hide_eq_arr {hit : Place → Bool} {v : Json} {others : List Json} (h : v.hide hit = .arr others) :
    ∃ items, v = .arr items ∧ others = hideItems hit 0 items := by
  cases v with
  | arr items =>
    rw [hide, arr.injEq] at h
    exact ⟨items, rfl, h.symm⟩
  | str t => simp [hide] at h
  | obj es => simp [hide] at h
  | null => cases h
  | bool b => cases h
  | num n => cases h

theorem isPlain_hide_iff {hit : Place → Bool} {v : Json} {place : Place} :
    (v.hide hit).IsPlain place ↔ v.IsPlain place ∧ hit place = false := by
  constructor
  · rintro ⟨s, hs, hplain⟩
    rw [within?_hide, Option.map_eq_some_iff] at hs
    obtain ⟨w, hw, hs⟩ := hs
    obtain ⟨t, rfl, rfl⟩ := hide_eq_str hs
    rw [List.append_nil] at hplain
    cases hh : hit place with
    | true => simp [hh, Placeholder.isSecret] at hplain
    | false => exact ⟨⟨t, hw, by simpa [hh] using hplain⟩, rfl⟩
  · rintro ⟨⟨s, hs, hplain⟩, hh⟩
    refine ⟨s, ?_, hplain⟩
    rw [within?_hide, hs, Option.map_some, hide, List.append_nil, hh]
    rfl

end Json
end ResourceTemplate
