import Mathlib.Data.List.Nodup
import Mathlib.Tactic.Tauto
import ResourceTemplate.Proofs.Redaction
import ResourceTemplate.Proofs.Redaction.Places
import ResourceTemplate.Proofs.Redaction.Written

namespace ResourceTemplate

/-- Whether a path leads to a place of a value. A key means the member of that spelling, or else the first that differs
in case; a wildcard means any item. -/
inductive Leads : PropertyPath → Json → Place → Prop
  | here (v : Json) : Leads [] v []
  | key {name key : String} {rest : PropertyPath} {es : Entries Json} {v : Json} {place : Place}
      (hk : es.spelling? name = some key) (hv : es[es.keys.idxOf key]? = some (key, v))
      (h : Leads rest v place) : Leads (.key name :: rest) (.obj es) (es.keys.idxOf key :: place)
  | index {i : Nat} {rest : PropertyPath} {items : List Json} {v : Json} {place : Place}
      (hv : items[i]? = some v) (h : Leads rest v place) :
      Leads (.index i :: rest) (.arr items) (i :: place)
  | wildcard {i : Nat} {rest : PropertyPath} {items : List Json} {v : Json} {place : Place}
      (hv : items[i]? = some v) (h : Leads rest v place) :
      Leads (.wildcard :: rest) (.arr items) (i :: place)

namespace Leads

theorem hide {path : PropertyPath} {v : Json} {place : Place} (h : Leads path v place) (hit : Place → Bool) :
    Leads path (v.hide hit) place := by
  induction h generalizing hit with
  | here v => exact .here _
  | @key name key rest es v place hk hv h ih =>
    have hkeys := Json.keys_hideMembers hit 0 es
    rw [Json.hide, ← hkeys]
    refine .key (v := v.hide fun place => hit (es.keys.idxOf key :: place)) ?_ ?_ (ih _)
    · rw [Entries.spelling?_congr hkeys, hk]
    · rw [hkeys, Json.getElem?_hideMembers, hv, Option.map_some, Nat.zero_add]
  | @index i rest items v place hv h ih =>
    rw [Json.hide]
    refine .index (v := v.hide fun place => hit (i :: place)) ?_ (ih _)
    rw [Json.getElem?_hideItems, hv, Option.map_some, Nat.zero_add]
  | @wildcard i rest items v place hv h ih =>
    rw [Json.hide]
    refine .wildcard (v := v.hide fun place => hit (i :: place)) ?_ (ih _)
    rw [Json.getElem?_hideItems, hv, Option.map_some, Nat.zero_add]

theorem of_hide {path : PropertyPath} {v : Json} {place : Place} {hit : Place → Bool}
    (h : Leads path (v.hide hit) place) : Leads path v place := by
  generalize hw : v.hide hit = w at h
  induction h generalizing v hit with
  | here w => exact .here v
  | @key name key rest fs w place hk hv h ih =>
    obtain ⟨es, rfl, rfl⟩ := Json.hide_eq_obj hw
    rw [Json.keys_hideMembers] at hv ⊢
    rw [Json.getElem?_hideMembers, Option.map_eq_some_iff] at hv
    obtain ⟨⟨_, u⟩, hu, he⟩ := hv
    cases he
    exact .key (Entries.spelling?_congr (Json.keys_hideMembers hit 0 es) name ▸ hk) hu (ih rfl)
  | @index i rest others w place hv h ih =>
    obtain ⟨items, rfl, rfl⟩ := Json.hide_eq_arr hw
    rw [Json.getElem?_hideItems, Option.map_eq_some_iff] at hv
    obtain ⟨u, hu, rfl⟩ := hv
    exact .index hu (ih rfl)
  | @wildcard i rest others w place hv h ih =>
    obtain ⟨items, rfl, rfl⟩ := Json.hide_eq_arr hw
    rw [Json.getElem?_hideItems, Option.map_eq_some_iff] at hv
    obtain ⟨u, hu, rfl⟩ := hv
    exact .wildcard hu (ih rfl)

/-- A path leads to the same places whatever is hidden. -/
theorem hide_iff {path : PropertyPath} {v : Json} {place : Place} {hit : Place → Bool} :
    Leads path (v.hide hit) place ↔ Leads path v place :=
  ⟨of_hide, fun h => h.hide hit⟩

@[simp] theorem nil_iff {v : Json} {place : Place} : Leads [] v place ↔ place = [] := by
  constructor
  · rintro ⟨⟩
    rfl
  · rintro rfl
    exact .here v

theorem key_iff {name key : String} {rest : PropertyPath} {es : Entries Json} {v : Json} {place : Place}
    (hk : es.spelling? name = some key) (hv : es[es.keys.idxOf key]? = some (key, v)) :
    Leads (.key name :: rest) (.obj es) place ↔
      ∃ place', place = es.keys.idxOf key :: place' ∧ Leads rest v place' := by
  constructor
  · intro h
    cases h with
    | key hk' hv' h =>
      rw [hk] at hk'
      cases hk'
      rw [hv] at hv'
      cases hv'
      exact ⟨_, rfl, h⟩
  · rintro ⟨place', rfl, h⟩
    exact .key hk hv h

theorem index_iff {i : Nat} {rest : PropertyPath} {items : List Json} {v : Json} {place : Place}
    (hv : items[i]? = some v) :
    Leads (.index i :: rest) (.arr items) place ↔ ∃ place', place = i :: place' ∧ Leads rest v place' := by
  constructor
  · intro h
    cases h with
    | index hv' h =>
      rw [hv] at hv'
      cases hv'
      exact ⟨_, rfl, h⟩
  · rintro ⟨place', rfl, h⟩
    exact .index hv h

theorem wildcard_iff {rest : PropertyPath} {items : List Json} {place : Place} :
    Leads (.wildcard :: rest) (.arr items) place ↔
      ∃ i v, items[i]? = some v ∧ ∃ place', place = i :: place' ∧ Leads rest v place' := by
  constructor
  · intro h
    cases h with
    | wildcard hv h => exact ⟨_, _, hv, _, rfl, h⟩
  · rintro ⟨i, v, hv, place', rfl, h⟩
    exact .wildcard hv h

def position (v : Json) : PathSegment → Nat
  | .key name =>
    match v with
    | .obj es => (Entries.keys es).idxOf name
    | _ => 0
  | .index i => i
  | .wildcard => 0

/-- The first position of a place, with the step that leads there. -/
theorem step {path : PropertyPath} {v : Json} {i : Nat} {place : Place} (h : Leads path v (i :: place)) :
    ∃ step w rest, v.child? i = some (step, w) ∧ position v step = i ∧ Leads rest w place ∧
      (path.IsWritten → (∀ name, step = .key name → PropertyPath.IsWord name) ∧ PropertyPath.IsWritten rest) := by
  cases h with
  | @key name key rest es w _ hk hv h =>
    refine ⟨.key key, w, rest, by rw [Json.child?, hv]; rfl, rfl, h, fun hw => ?_⟩
    obtain ⟨hname, hrest⟩ := PropertyPath.isWritten_cons_iff.mp hw
    refine ⟨fun name' hn => ?_, hrest⟩
    cases hn
    exact (hname name rfl).of_fold (Entries.spelling?_eq_some hk).2
  | @index _ rest items w _ hv h =>
    exact ⟨.index i, w, rest, by rw [Json.child?, hv]; rfl, rfl, h, fun hw =>
      ⟨(fun name hn => by cases hn), (PropertyPath.isWritten_cons_iff.mp hw).2⟩⟩
  | @wildcard _ rest items w _ hv h =>
    exact ⟨.index i, w, rest, by rw [Json.child?, hv]; rfl, rfl, h, fun hw =>
      ⟨(fun name hn => by cases hn), (PropertyPath.isWritten_cons_iff.mp hw).2⟩⟩

/-- The path to a place to which one leads that can be written can be written. -/
theorem isWritten_pathTo {path : PropertyPath} {v : Json} {place : Place} (h : Leads path v place)
    (hw : path.IsWritten) : (v.pathTo place).IsWritten := by
  induction place generalizing path v with
  | nil => exact PropertyPath.isWritten_nil
  | cons i place ih =>
    obtain ⟨step, w, rest, hc, -, hl, hs⟩ := h.step
    obtain ⟨hstep, hrest⟩ := hs hw
    rw [Json.pathTo, hc]
    exact PropertyPath.isWritten_cons_iff.mpr ⟨hstep, ih hl hrest⟩

theorem exists_key {path : PropertyPath} {body : Entries Json} {place : Place} (h : Leads path (.obj body) place)
    (hp : (Json.obj body).IsPlain place) : ∃ name rest, (Json.obj body).pathTo place = .key name :: rest := by
  cases place with
  | nil => exact absurd hp (Json.not_isPlain_nil (by simp))
  | cons i place =>
    obtain ⟨step, w, rest, hc, -⟩ := h.step
    rw [Json.pathTo, hc]
    obtain ⟨e, -, he⟩ := Option.map_eq_some_iff.mp hc
    cases he
    exact ⟨e.1, _, rfl⟩

theorem pathTo_injective {path path' : PropertyPath} {v : Json} {place place' : Place} (h : Leads path v place)
    (h' : Leads path' v place') (he : v.pathTo place = v.pathTo place') : place = place' := by
  induction place generalizing path path' v place' with
  | nil =>
    cases place' with
    | nil => rfl
    | cons i place' =>
      obtain ⟨step, w, rest, hc, -⟩ := h'.step
      rw [Json.pathTo, Json.pathTo, hc] at he
      cases he
  | cons i place ih =>
    obtain ⟨step, w, rest, hc, hi, hl, -⟩ := h.step
    cases place' with
    | nil =>
      rw [Json.pathTo, Json.pathTo, hc] at he
      cases he
    | cons j place' =>
      obtain ⟨step', w', rest', hc', hj, hl', -⟩ := h'.step
      rw [Json.pathTo, Json.pathTo, hc, hc'] at he
      obtain ⟨rfl, hrest⟩ := List.cons.inj he
      obtain rfl : i = j := hi.symm.trans hj
      rw [hc] at hc'
      cases hc'
      rw [ih hl hl' hrest]

end Leads

namespace Redaction

/-- Whether a redaction of a value that stands at `here` replaces the plain strings at target places, and nothing
else, and tells the path of each of them once. -/
def Replaces (target : Place → Prop) (here : String) (v : Json) (r : Redacted Json) : Prop :=
  ∃ places : List Place, places.Nodup ∧ (∀ place, place ∈ places ↔ target place ∧ v.IsPlain place) ∧
    r = (v.hide places.contains, places.map fun place => PropertyPath.renderFrom here (v.pathTo place))

namespace Replaces

variable {target : Place → Prop} {here : String} {v : Json}

theorem hide_contains_nil (v : Json) : v.hide (List.contains []) = v := by
  have hnone : List.contains ([] : List Place) = fun _ => false := by
    funext place
    rfl
  rw [hnone, Json.hide_none]

/-- Nothing is replaced where no plain string stands at a target place. -/
theorem none (h : ∀ place, target place → ¬ v.IsPlain place) : Replaces target here v (v, []) := by
  refine ⟨[], List.nodup_nil, fun place => by simpa using h place, ?_⟩
  rw [hide_contains_nil, List.map_nil]

theorem eq_of_none {r : Redacted Json} (h : Replaces target here v r)
    (hnone : ∀ place, target place → ¬ v.IsPlain place) : r = (v, []) := by
  obtain ⟨places, -, hm, rfl⟩ := h
  obtain rfl : places = [] := List.eq_nil_iff_forall_not_mem.mpr fun place hp =>
    hnone place ((hm place).mp hp).1 ((hm place).mp hp).2
  rw [hide_contains_nil, List.map_nil]

theorem congr {target' : Place → Prop} {r : Redacted Json} (h : Replaces target here v r)
    (ht : ∀ place, v.IsPlain place → (target place ↔ target' place)) : Replaces target' here v r := by
  obtain ⟨places, hn, hm, hr⟩ := h
  refine ⟨places, hn, fun place => ?_, hr⟩
  rw [hm]
  exact and_congr_left (ht place)

theorem append {target' : Place → Prop} {r s : Redacted Json} (h : Replaces target here v r)
    (k : Replaces target' here r.1 s) :
    Replaces (fun place => target place ∨ target' place) here v (s.1, r.2 ++ s.2) := by
  obtain ⟨places, hn, hm, rfl⟩ := h
  obtain ⟨places', hn', hm', rfl⟩ := k
  have hfresh : ∀ place ∈ places', place ∉ places := by
    intro place hp hq
    have hplain := ((hm' place).mp hp).2
    rw [Json.isPlain_hide_iff] at hplain
    simp [hq] at hplain
  refine ⟨places ++ places', ?_, ?_, ?_⟩
  · rw [List.nodup_append]
    refine ⟨hn, hn', ?_⟩
    rintro place hp _ hq rfl
    exact hfresh place hq hp
  · intro place
    rw [List.mem_append, hm', Json.isPlain_hide_iff, List.contains_eq_mem, decide_eq_false_iff_not, hm]
    dsimp only
    tauto
  · have hor : (fun place => places.contains place || places'.contains place) = (places ++ places').contains := by
      funext place
      simp
    dsimp only
    rw [Json.hide_hide, hor, List.map_append]
    simp only [Json.pathTo_hide]

/-- What is replaced in some of the members or items of a value is replaced in it. -/
theorem children {v' : Json} {cs : List (Json × Nat)} {f : Json × Nat → Redacted Json}
    {T : Nat → Place → Prop} (hn : (cs.map Prod.snd).Nodup)
    (hc : ∀ c ∈ cs, ∃ step, v.child? c.2 = some (step, c.1) ∧
      Replaces (T c.2) (PropertyPath.renderFrom here [step]) c.1 (f c))
    (hv : ∀ hit : Place → Bool, (∀ c ∈ cs, (f c).1 = c.1.hide fun rest => hit (c.2 :: rest)) →
      (∀ i rest, i ∉ cs.map Prod.snd → hit (i :: rest) = false) → v' = v.hide hit) :
    Replaces (fun place => ∃ c ∈ cs, ∃ rest, place = c.2 :: rest ∧ T c.2 rest) here v
      (v', cs.flatMap fun c => (f c).2) := by
  have hplaces (c : Json × Nat) : ∃ places : List Place, c ∈ cs → places.Nodup ∧
      (∀ rest, rest ∈ places ↔ T c.2 rest ∧ v.IsPlain (c.2 :: rest)) ∧
      (f c).1 = c.1.hide places.contains ∧
      (f c).2 = places.map fun rest => PropertyPath.renderFrom here (v.pathTo (c.2 :: rest)) := by
    by_cases hm : c ∈ cs
    · obtain ⟨step, hs, places, hn, hp, hr⟩ := hc c hm
      refine ⟨places, fun _ => ⟨hn, fun rest => ?_, congrArg Prod.fst hr, (congrArg Prod.snd hr).trans ?_⟩⟩
      · rw [hp, Json.IsPlain, Json.IsPlain, Json.within?, hs]
        rfl
      · apply List.map_congr_left
        intro rest _
        rw [Json.pathTo, hs]
        cases step <;> rfl
    · exact ⟨[], fun h => absurd h hm⟩
  choose places hplaces using hplaces
  -- positions tell the children apart
  have heq {c c' : Json × Nat} (h : c ∈ cs) (h' : c' ∈ cs) (hi : c.2 = c'.2) : c = c' :=
    List.inj_on_of_nodup_map hn h h' hi
  have hmem {i : Nat} {rest : Place} : i :: rest ∈ cs.flatMap (fun c => (places c).map (c.2 :: ·)) ↔
      ∃ c ∈ cs, c.2 = i ∧ rest ∈ places c := by
    simp only [List.mem_flatMap, List.mem_map, List.cons.injEq, exists_eq_right_right]
    tauto
  refine ⟨cs.flatMap fun c => (places c).map (c.2 :: ·), ?_, ?_, Prod.ext ?_ ?_⟩
  · rw [List.nodup_flatMap]
    refine ⟨fun c hm => (hplaces c hm).1.map fun _ _ h => (List.cons.inj h).2, ?_⟩
    refine (List.pairwise_map.mp hn).imp ?_
    intro c c' hne
    simp only [Function.onFun, List.disjoint_left, List.mem_map]
    rintro _ ⟨rest, -, rfl⟩ ⟨rest', -, h⟩
    exact hne (List.cons.inj h).1.symm
  · intro place
    cases place with
    | nil => simp
    | cons i rest =>
      rw [hmem]
      constructor
      · rintro ⟨c, hm, rfl, hr⟩
        have hr := ((hplaces c hm).2.1 rest).mp hr
        exact ⟨⟨c, hm, rest, rfl, hr.1⟩, hr.2⟩
      · rintro ⟨⟨c, hm, _, h, ht⟩, hp⟩
        cases h
        exact ⟨c, hm, rfl, ((hplaces c hm).2.1 rest).mpr ⟨ht, hp⟩⟩
  · refine hv _ (fun c hm => (hplaces c hm).2.2.1.trans (congrArg (Json.hide · c.1) ?_)) ?_
    · funext rest
      rw [Bool.eq_iff_iff, List.contains_iff_mem, List.contains_iff_mem, hmem]
      constructor
      · exact fun h => ⟨c, hm, rfl, h⟩
      · rintro ⟨c', hm', hi, h⟩
        rwa [← heq hm' hm hi]
    · intro i rest hi
      rw [List.contains_eq_mem, decide_eq_false_iff_not, hmem]
      rintro ⟨c, hm, rfl, -⟩
      exact hi (List.mem_map_of_mem hm)
  · rw [List.map_flatMap]
    apply List.flatMap_congr
    intro c hm
    rw [(hplaces c hm).2.2.2, List.map_map]
    rfl

end Replaces

theorem onMember_eq (f : Json → Redacted Json) {key : String} {es : Entries Json} {v : Json}
    (h : es[es.keys.idxOf key]? = some (key, v)) :
    onMember f key es = (es.set (es.keys.idxOf key) (key, (f v).1), (f v).2) := by
  induction es with
  | nil => cases h
  | cons e es ih =>
    obtain ⟨k, w⟩ := e
    have hkeys : Entries.keys ((k, w) :: es) = k :: Entries.keys es := rfl
    rw [hkeys] at h ⊢
    by_cases hk : k = key
    · subst hk
      rw [List.idxOf_cons_self, List.getElem?_cons_zero] at h
      cases h
      rw [List.idxOf_cons_self, onMember, beq_self_eq_true]
      rfl
    · rw [List.idxOf_cons_ne _ hk, List.getElem?_cons_succ] at h
      rw [List.idxOf_cons_ne _ hk, List.set_cons_succ, onMember, beq_false_of_ne hk, ih h]
      rfl

theorem onItem_eq (f : Json → Redacted Json) {i : Nat} {items : List Json} {v : Json} (h : items[i]? = some v) :
    onItem f i items = (items.set i (f v).1, (f v).2) := by
  induction items generalizing i with
  | nil => cases h
  | cons w items ih =>
    cases i with
    | zero =>
      cases h
      rfl
    | succ i =>
      rw [onItem, ih h]
      rfl

theorem onItem_of_none (f : Json → Redacted Json) {i : Nat} {items : List Json} (h : items[i]? = none) :
    onItem f i items = (items, []) := by
  induction items generalizing i with
  | nil => cases i <;> rfl
  | cons w items ih =>
    cases i with
    | zero => cases h
    | succ i => rw [onItem, ih h]

theorem found_onItems (f : Nat → Json → Redacted Json) (n : Nat) (items : List Json) :
    (onItems f n items).2 = (items.zipIdx n).flatMap fun c => (f c.2 c.1).2 := by
  induction items generalizing n with
  | nil => rfl
  | cons v items ih =>
    rw [onItems, List.zipIdx_cons, List.flatMap_cons, ← ih]

/-- A list that is another but for one item is the other with that item set. -/
theorem set_eq_of_getElem? {α : Type} {xs ys : List α} {i : Nat} {v : α} (g : Nat → α → α)
    (hys : ∀ j, ys[j]? = xs[j]?.map (g j)) (hv : xs[i]? = some v) (hother : ∀ j, j ≠ i → ∀ w, g j w = w) :
    xs.set i (g i v) = ys := by
  apply List.ext_getElem?
  intro j
  rw [hys]
  by_cases hj : i = j
  · subst hj
    rw [List.getElem?_set_self (List.getElem?_eq_some_iff.mp hv).1, hv, Option.map_some]
  · rw [List.getElem?_set_ne hj]
    cases xs[j]? with
    | none => rfl
    | some w => exact congrArg some (hother j (Ne.symm hj) w).symm

namespace Replaces

variable {target : Place → Prop} {here : String}

theorem member {es : Entries Json} {i : Nat} {key : String} {v : Json} {r : Redacted Json}
    (hv : es[i]? = some (key, v)) (h : Replaces target (PropertyPath.joinKey here key) v r) :
    Replaces (fun place => ∃ rest, place = i :: rest ∧ target rest) here (.obj es)
      (.obj (es.set i (key, r.1)), r.2) := by
  have hr : r.2 = [(v, i)].flatMap fun _ => r.2 := by simp
  rw [hr]
  refine (children (f := fun _ => r) (T := fun _ => target) (by simp) ?_ ?_).congr ?_
  · rintro c hc
    obtain rfl := List.mem_singleton.mp hc
    exact ⟨.key key, by rw [Json.child?, hv]; rfl, h⟩
  · intro hit hself hother
    have hself : r.1 = v.hide fun rest => hit (i :: rest) := hself (v, i) List.mem_cons_self
    rw [Json.hide, hself]
    refine congrArg Json.obj (set_eq_of_getElem? (fun j e => (e.1, e.2.hide fun rest => hit (j :: rest)))
      (fun j => ?_) hv fun j hj e => ?_)
    · rw [Json.getElem?_hideMembers, Nat.zero_add]
    · have hnone : (fun rest => hit (j :: rest)) = fun _ => false :=
        funext fun rest => hother j rest (by simpa using hj)
      rw [hnone, Json.hide_none]
  · intro place _
    simp

theorem item {items : List Json} {i : Nat} {v : Json} {r : Redacted Json} (hv : items[i]? = some v)
    (h : Replaces target (PropertyPath.joinIndex here i) v r) :
    Replaces (fun place => ∃ rest, place = i :: rest ∧ target rest) here (.arr items)
      (.arr (items.set i r.1), r.2) := by
  have hr : r.2 = [(v, i)].flatMap fun _ => r.2 := by simp
  rw [hr]
  refine (children (f := fun _ => r) (T := fun _ => target) (by simp) ?_ ?_).congr ?_
  · rintro c hc
    obtain rfl := List.mem_singleton.mp hc
    exact ⟨.index i, by rw [Json.child?, hv]; rfl, h⟩
  · intro hit hself hother
    have hself : r.1 = v.hide fun rest => hit (i :: rest) := hself (v, i) List.mem_cons_self
    rw [Json.hide, hself]
    refine congrArg Json.arr (set_eq_of_getElem? (fun j w => w.hide fun rest => hit (j :: rest))
      (fun j => ?_) hv fun j hj w => ?_)
    · rw [Json.getElem?_hideItems, Nat.zero_add]
    · have hnone : (fun rest => hit (j :: rest)) = fun _ => false :=
        funext fun rest => hother j rest (by simpa using hj)
      rw [hnone, Json.hide_none]
  · intro place _
    simp

theorem items {items : List Json} {targets : Json → Place → Prop} {f : Nat → Json → Redacted Json}
    (h : ∀ i v, Replaces (targets v) (PropertyPath.joinIndex here i) v (f i v)) :
    Replaces (fun place => ∃ i v, items[i]? = some v ∧ ∃ rest, place = i :: rest ∧ targets v rest) here
      (.arr items) (.arr (onItems f 0 items).1, (onItems f 0 items).2) := by
  rw [found_onItems]
  refine (children (T := fun i rest => ∃ v, items[i]? = some v ∧ targets v rest) ?_ ?_ ?_).congr ?_
  · rw [List.zipIdx_map_snd]
    exact List.nodup_range'
  · rintro ⟨v, i⟩ hc
    have hv : items[i]? = some v := List.mk_mem_zipIdx_iff_getElem?.mp hc
    refine ⟨.index i, by rw [Json.child?, hv]; rfl, (h i v).congr fun place _ => ?_⟩
    simp [hv]
  · intro hit hself _
    rw [Json.hide, Json.arr.injEq]
    apply List.ext_getElem?
    intro j
    rw [getElem?_onItems, Json.getElem?_hideItems, Nat.zero_add]
    apply Option.map_congr
    intro v hv
    exact hself (v, j) (List.mk_mem_zipIdx_iff_getElem?.mpr hv)
  · intro place _
    constructor
    · rintro ⟨⟨v, i⟩, hc, rest, rfl, w, hw, ht⟩
      exact ⟨i, w, hw, rest, rfl, ht⟩
    · rintro ⟨i, v, hv, rest, rfl, ht⟩
      exact ⟨(v, i), List.mk_mem_zipIdx_iff_getElem?.mpr hv, rest, rfl, v, hv, ht⟩

end Replaces

theorem alongPath_replaces (path : PropertyPath) (here : String) (v : Json) :
    Replaces (Leads path v) here v (alongPath path here v) := by
  induction path generalizing here v with
  | nil =>
    cases v with
    | str s =>
      rw [alongPath]
      cases hs : Placeholder.isSecret s with
      | true =>
        refine .none fun place hl => ?_
        obtain rfl := Leads.nil_iff.mp hl
        rintro ⟨t, ht, hp⟩
        cases ht
        simp [hs] at hp
      | false =>
        refine ⟨[[]], by simp, fun place => ?_, rfl⟩
        rw [Leads.nil_iff, List.mem_singleton]
        refine ⟨?_, And.left⟩
        rintro rfl
        exact ⟨rfl, s, rfl, hs⟩
    | _ => exact .none fun place hl => Leads.nil_iff.mp hl ▸ Json.not_isPlain_nil (by simp)
  | cons step rest ih =>
    cases v with
    | obj es =>
      cases step with
      | key name =>
        rw [alongPath]
        cases hk : Entries.spelling? es name with
        | none =>
          refine .none fun place hl => ?_
          cases hl with
          | key hk' =>
            rw [hk] at hk'
            cases hk'
        | some key =>
          obtain ⟨v, hv⟩ := Entries.getElem?_idxOf_keys (Entries.spelling?_eq_some hk).1
          dsimp only
          rw [onMember_eq _ hv]
          have hmember := Replaces.member hv (ih (PropertyPath.joinKey here key) v)
          exact hmember.congr fun place _ => (Leads.key_iff hk hv).symm
      | index i => exact .none fun place hl => nomatch hl
      | wildcard => exact .none fun place hl => nomatch hl
    | arr items =>
      cases step with
      | key name => exact .none fun place hl => nomatch hl
      | index i =>
        rw [alongPath]
        cases hv : items[i]? with
        | none =>
          rw [onItem_of_none _ hv]
          refine .none fun place hl => ?_
          cases hl with
          | index hv' =>
            rw [hv] at hv'
            cases hv'
        | some v =>
          rw [onItem_eq _ hv]
          have hitem := Replaces.item hv (ih (PropertyPath.joinIndex here i) v)
          exact hitem.congr fun place _ => (Leads.index_iff hv).symm
      | wildcard =>
        rw [alongPath]
        have hitems : Replaces _ here (.arr items) _ :=
          Replaces.items fun i v => ih (PropertyPath.joinIndex here i) v
        exact hitems.congr fun place _ => Leads.wildcard_iff.symm
    | _ => cases step <;> exact .none fun place hl => nomatch hl

theorem inBody_replaces (path : PropertyPath) (body : Entries Json) :
    Replaces (Leads path (.obj body)) "" (.obj body) (.obj (inBody path body).1, (inBody path body).2) := by
  unfold inBody
  split
  · rename_i name rest
    have h := alongPath_replaces (.key name :: rest) "" (.obj body)
    obtain ⟨es, he, -⟩ := alongPath_body (.key name :: rest) "" body
    generalize alongPath (.key name :: rest) "" (.obj body) = r at h he
    obtain ⟨v, paths⟩ := r
    cases he
    exact h
  · -- a path that begins with no key leads to no string of a body
    rename_i hpath
    refine .none fun place hl => ?_
    cases hl with
    | here => exact Json.not_isPlain_nil (by simp)
    | key => exact absurd rfl (hpath _ _)

theorem foldl_inBody_replaces (paths : List WrittenPath) (acc : Redacted (Entries Json))
    {body : Entries Json} {target : Place → Prop} (h : Replaces target "" (.obj body) (.obj acc.1, acc.2)) :
    let r := paths.foldl (fun (body, found) p =>
      let (body, more) := inBody p.path body
      (body, found ++ more)) acc
    Replaces (fun place => target place ∨ ∃ p ∈ paths, Leads p.path (.obj body) place) "" (.obj body)
      (.obj r.1, r.2) := by
  induction paths generalizing target acc with
  | nil => exact h.congr fun place _ => by simp
  | cons p paths ih =>
    have hfirst : Replaces (Leads p.path (.obj body)) "" (.obj acc.1)
        (.obj (inBody p.path acc.1).1, (inBody p.path acc.1).2) := by
      obtain ⟨places, -, -, hr⟩ := h
      refine (inBody_replaces p.path acc.1).congr fun place _ => ?_
      rw [show Json.obj acc.1 = (Json.obj body).hide places.contains from congrArg Prod.fst hr]
      exact Leads.hide_iff
    refine (ih (_, acc.2 ++ _) (h.append hfirst)).congr fun place _ => ?_
    rw [List.exists_mem_cons_iff, or_assoc]

end Redaction

end ResourceTemplate
