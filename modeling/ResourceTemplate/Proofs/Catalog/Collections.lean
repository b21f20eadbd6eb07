import Mathlib.Data.List.Induction
import ResourceTemplate.Catalog.Collections
import ResourceTemplate.Proofs.Json.Equality

namespace ResourceTemplate.Catalog.Collections

open Entries

/-! ### Merged objects -/

section

variable {es : Entries Json} {key : String}

theorem keys_update (es : Entries Json) (key : String) (f : Json → Json) : (update es key f).keys = es.keys := by
  induction es with
  | nil => rfl
  | cons e es ih =>
    rw [update]
    split
    · rfl
    · exact congrArg (e.1 :: ·) ih

theorem update_congr {f g : Json → Json} (h : ∀ v, es.get? key = some v → f v = g v) :
    update es key f = update es key g := by
  induction es with
  | nil => rfl
  | cons e es ih =>
    rw [update, update]
    by_cases hkey : (e.1 == key) = true
    · rw [if_pos hkey, if_pos hkey, h e.2 (by rw [get?_cons, if_pos hkey])]
    · rw [if_neg hkey, if_neg hkey, ih fun v hv => h v (by rw [get?_cons, if_neg hkey, hv])]

theorem mem_update (h : es.Apart) {v : Json} (hmem : (key, v) ∈ es) (f : Json → Json) :
    (key, f v) ∈ update es key f := by
  induction es with
  | nil => cases hmem
  | cons e es ih =>
    obtain ⟨hfirst, hrest⟩ := h.of_cons
    rw [update]
    rcases List.mem_cons.mp hmem with rfl | hmem
    · rw [if_pos (beq_self_eq_true _)]
      exact List.mem_cons_self
    · have hne : (e.1 == key) = false := by
        rw [beq_eq_false_iff_ne]
        rintro rfl
        have hother := hfirst _ hmem
        rw [Name.same_self] at hother
        cases hother
      rw [hne, if_neg Bool.false_ne_true]
      exact List.mem_cons_of_mem _ (ih hrest hmem)

theorem mem_update_of_ne {e : String × Json} (hmem : e ∈ es) (hne : e.1 ≠ key) (f : Json → Json) :
    e ∈ update es key f := by
  induction es with
  | nil => cases hmem
  | cons e' es ih =>
    rw [update]
    rcases List.mem_cons.mp hmem with rfl | hmem
    · rw [if_neg (by simpa using hne)]
      exact List.mem_cons_self
    · split
      · exact List.mem_cons_of_mem _ hmem
      · exact List.mem_cons_of_mem _ (ih hmem)

def merged : Json → Json → Json
  | .obj current, .obj incoming => .obj (mergeEntries current incoming)
  | _, incoming => incoming

theorem mergeEntry_of_none (h : es.getNamed? key = none) (v : Json) : mergeEntry es key v = es ++ [(key, v)] := by
  have hs : es.spelling? key = none := by
    rw [← Option.not_isSome_iff_eq_none, ← getNamed?_isSome, h]
    nofun
  cases v <;> simp only [mergeEntry, hs, insert_of_getNamed?_eq_none h]

theorem mergeEntry_of_some {spelling : String} (h : es.spelling? key = some spelling) (v : Json) :
    mergeEntry es key v = update es spelling fun current => merged current v := by
  cases v with
  | obj incoming =>
    simp only [mergeEntry, h]
    split
    · rename_i current hcurrent
      refine update_congr fun w hw => ?_
      obtain rfl := Option.some.inj (hcurrent.symm.trans hw)
      rfl
    · rename_i hother
      refine update_congr fun w hw => ?_
      cases w with
      | obj current => exact absurd hw (hother current)
      | _ => rfl
  | _ => simp only [mergeEntry, h, merged]

/-- The names after an entry is written: a name that was there under some spelling keeps its place and spelling, a new
one comes last. -/
theorem keys_mergeEntry (es : Entries Json) (key : String) (v : Json) :
    (mergeEntry es key v).keys = if (es.getNamed? key).isNone then es.keys ++ [key] else es.keys := by
  cases hs : es.spelling? key with
  | none =>
    have hnew : es.getNamed? key = none := by
      rw [← Option.not_isSome_iff_eq_none, getNamed?_isSome, hs]
      nofun
    rw [mergeEntry_of_none hnew, hnew]
    simp [keys]
  | some spelling =>
    have hold : (es.getNamed? key).isNone = false := by rw [← Option.not_isSome, getNamed?_isSome, hs]; rfl
    rw [mergeEntry_of_some hs, keys_update, hold, if_neg Bool.false_ne_true]

theorem apart_mergeEntry (h : es.Apart) (key : String) (v : Json) : (mergeEntry es key v).Apart := by
  cases hg : es.getNamed? key with
  | none =>
    rw [mergeEntry_of_none hg]
    exact h.concat hg v
  | some w =>
    have hkeys := keys_mergeEntry es key v
    rw [hg, if_neg nofun] at hkeys
    unfold Entries.Apart at h ⊢
    rwa [hkeys]

theorem apart_mergeEntries (h : es.Apart) (fs : Entries Json) : (mergeEntries es fs).Apart := by
  induction fs generalizing es with
  | nil => rwa [mergeEntries]
  | cons f fs ih =>
    rw [mergeEntries]
    exact ih (apart_mergeEntry h f.1 f.2)

theorem getNamed?_mergeEntry (h : es.Apart) (key name : String) (v : Json) :
    (mergeEntry es key v).getNamed? name =
      if Name.same key name then some (((es.getNamed? name).map fun current => merged current v).getD v)
      else es.getNamed? name := by
  have hafter := apart_mergeEntry h key v
  cases hg : es.getNamed? key with
  | none =>
    rw [mergeEntry_of_none hg] at hafter ⊢
    split
    · rename_i hsame
      have hnone : es.getNamed? name = none := getNamed?_eq_none fun k hk => by
        obtain ⟨e, he, rfl⟩ := List.mem_map.mp hk
        rw [Name.same, ← Name.same_iff.mp hsame]
        exact same_eq_false_of_getNamed?_eq_none hg e he
      have hmem : (key, v) ∈ es ++ [(key, v)] := List.mem_append_right _ List.mem_cons_self
      rw [hafter.getNamed?_of_mem hmem (Name.same_iff.mp hsame), hnone]
      rfl
    · rename_i hsame
      rw [← insert_of_getNamed?_eq_none hg, getNamed?_insert_of_ne (by simpa using hsame)]
  | some w =>
    obtain ⟨spelling, hs⟩ : ∃ spelling, es.spelling? key = some spelling :=
      Option.isSome_iff_exists.mp (by rw [← getNamed?_isSome, hg]; rfl)
    obtain ⟨hkey, hfold⟩ := spelling?_eq_some hs
    obtain ⟨⟨k, current⟩, hmem, rfl⟩ := List.mem_map.mp hkey
    rw [mergeEntry_of_some hs] at hafter ⊢
    split
    · rename_i hsame
      have hfold := hfold.trans (Name.same_iff.mp hsame)
      rw [h.getNamed?_of_mem hmem hfold, hafter.getNamed?_of_mem (mem_update h hmem _) hfold]
      rfl
    · rename_i hsame
      cases hn : es.getNamed? name with
      | none =>
        refine getNamed?_eq_none fun k' hk' => ?_
        rw [keys_update] at hk'
        obtain ⟨e, he, rfl⟩ := List.mem_map.mp hk'
        exact same_eq_false_of_getNamed?_eq_none hn e he
      | some u =>
        obtain ⟨k', hmem', hfold'⟩ := exists_of_getNamed? hn
        -- the entry of another name is not the one that is changed
        have hne : k' ≠ k := by
          rintro rfl
          exact hsame (Name.same_iff.mpr (hfold.symm.trans hfold'))
        exact hafter.getNamed?_of_mem (mem_update_of_ne hmem' hne _) hfold'

theorem getNamed?_mergeEntries {fs : Entries Json} (h : es.Apart) (hf : fs.Apart) (name : String) :
    (mergeEntries es fs).getNamed? name =
      match es.getNamed? name, fs.getNamed? name with
      | some current, some incoming => some (merged current incoming)
      | current, incoming => incoming.or current := by
  induction fs generalizing es with
  | nil =>
    rw [mergeEntries]
    cases es.getNamed? name <;> rfl
  | cons f fs ih =>
    obtain ⟨hfirst, hrest⟩ := hf.of_cons
    rw [mergeEntries, ih (apart_mergeEntry h f.1 f.2) hrest, getNamed?_mergeEntry h]
    by_cases hsame : Name.same f.1 name = true
    · have hnone : getNamed? fs name = none := getNamed?_eq_none fun k hk => by
        obtain ⟨e, he, rfl⟩ := List.mem_map.mp hk
        rw [Name.same, ← Name.same_iff.mp hsame]
        exact hfirst e he
      have hsome : getNamed? (f :: fs) name = some f.2 :=
        hf.getNamed?_of_mem List.mem_cons_self (Name.same_iff.mp hsame)
      rw [if_pos hsame, hnone, hsome]
      cases es.getNamed? name <;> rfl
    · have hskip : getNamed? (f :: fs) name = getNamed? fs name := by
        rw [hf.getNamed?_eq, hrest.getNamed?_eq, List.find?_cons, Bool.eq_false_iff.mpr hsame]
      rw [if_neg hsame, hskip]

/-- The names after a merge: those of the first object, then the new ones of the second. -/
theorem keys_mergeEntries {fs : Entries Json} (h : es.Apart) (hf : fs.Apart) :
    (mergeEntries es fs).keys = es.keys ++ fs.keys.filter fun key => (es.getNamed? key).isNone := by
  induction fs generalizing es with
  | nil => rw [mergeEntries]; simp [keys]
  | cons f fs ih =>
    obtain ⟨hfirst, hrest⟩ := hf.of_cons
    have hsame : (keys fs).filter (fun key => ((mergeEntry es f.1 f.2).getNamed? key).isNone) =
        (keys fs).filter fun key => (es.getNamed? key).isNone := by
      refine List.filter_congr fun key hkey => ?_
      obtain ⟨e, he, rfl⟩ := List.mem_map.mp hkey
      rw [getNamed?_mergeEntry h, Name.same_comm, hfirst e he, if_neg Bool.false_ne_true]
    rw [mergeEntries, ih (apart_mergeEntry h f.1 f.2) hrest, hsame, keys_mergeEntry]
    simp only [keys, List.map_cons, List.filter_cons]
    split <;> simp

/-- What is merged into names that are all apart from its own is added to them. -/
theorem mergeEntries_of_apart {fs : Entries Json} (h : Apart (es ++ fs)) : mergeEntries es fs = es ++ fs := by
  induction fs generalizing es with
  | nil => rw [mergeEntries, List.append_nil]
  | cons f fs ih =>
    have hnew : es.getNamed? f.1 = none := getNamed?_eq_none fun key hkey => by
      rw [Bool.eq_false_iff, ne_eq, Name.same_iff]
      unfold Entries.Apart keys at h
      rw [List.map_append, List.map_append] at h
      intro hfold
      exact List.disjoint_left.mp (List.nodup_append'.mp h).2.2 (List.mem_map_of_mem hkey)
        (by rw [hfold]; exact List.mem_cons_self)
    rw [mergeEntries, mergeEntry_of_none hnew, ih (by rwa [List.append_assoc]), List.append_assoc,
      List.singleton_append]

end

/-! ### Items that are kept once -/

theorem addItems_append (acc xs ys : List Json) : addItems acc (xs ++ ys) = addItems (addItems acc xs) ys :=
  List.foldl_append

theorem addItems_cons (acc : List Json) (x : Json) (xs : List Json) :
    addItems acc (x :: xs) = addItems (if x.elemAlike acc then acc else acc ++ [x]) xs := rfl

def Fresh (xs : List Json) : Prop := xs.Pairwise fun x y => x.alike y = false

theorem Fresh.concat {xs : List Json} (h : Fresh xs) {x : Json} (hx : x.elemAlike xs = false) : Fresh (xs ++ [x]) := by
  refine List.pairwise_append.mpr ⟨h, List.pairwise_singleton _ _, fun y hy z hz => ?_⟩
  obtain rfl := List.mem_singleton.mp hz
  simpa using List.any_eq_false.mp hx y hy

theorem fresh_addItems {acc : List Json} (h : Fresh acc) (xs : List Json) : Fresh (addItems acc xs) := by
  induction xs generalizing acc with
  | nil => exact h
  | cons x xs ih =>
    rw [addItems_cons]
    split
    · exact ih h
    · rename_i hnew
      exact ih (h.concat (by simpa using hnew))

theorem addItems_of_fresh {acc xs : List Json} (h : Fresh (acc ++ xs)) : addItems acc xs = acc ++ xs := by
  induction xs generalizing acc with
  | nil => rw [List.append_nil]; rfl
  | cons x xs ih =>
    have hnew : x.elemAlike acc = false := List.any_eq_false.mpr fun y hy => by
      simpa using (List.pairwise_append.mp h).2.2 y hy x List.mem_cons_self
    rw [addItems_cons, hnew, if_neg Bool.false_ne_true, ih (by simpa using h), List.append_assoc,
      List.singleton_append]

/-! ### Unions -/

theorem uniteArrays_eq (a : Args) (acc : List Json) (i : Nat) (lists : List (List Json)) :
    uniteArrays a acc i (lists.map .arr) = .ok (addItems acc lists.flatten) := by
  induction lists generalizing acc i with
  | nil => rfl
  | cons xs lists ih => rw [List.map_cons, uniteArrays, ih, List.flatten_cons, addItems_append]

theorem uniteObjects_eq (a : Args) (acc : Entries Json) (i : Nat) (objects : List (Entries Json)) :
    uniteObjects a acc i (objects.map .obj) = .ok (objects.foldl mergeEntries acc) := by
  induction objects generalizing acc i with
  | nil => rfl
  | cons es objects ih => rw [List.map_cons, uniteObjects, ih, List.foldl_cons]

variable (function : String)

theorem expect_two {values : List Json} (h : 2 ≤ values.length) :
    (⟨function, values⟩ : Args).expect 2 none = .ok () := by
  unfold Args.expect Args.expectCount
  rw [if_pos (by simpa using h)]

theorem union_arrays (lists : List (List Json)) (h : 2 ≤ lists.length) :
    union ⟨function, lists.map .arr⟩ = .ok (.arr (addItems [] lists.flatten)) := by
  unfold union
  rw [expect_two function (by simpa using h)]
  cases lists with
  | nil => simp at h
  | cons xs lists =>
    have hunited := uniteArrays_eq ⟨function, (xs :: lists).map .arr⟩ [] 0 (xs :: lists)
    dsimp only [bind, Except.bind, Args.value, List.map_cons, List.getElem?_cons_zero] at hunited ⊢
    rw [hunited]
    rfl

theorem union_objects (objects : List (Entries Json)) (h : 2 ≤ objects.length) :
    union ⟨function, objects.map .obj⟩ = .ok (.obj (objects.foldl mergeEntries [])) := by
  unfold union
  rw [expect_two function (by simpa using h)]
  cases objects with
  | nil => simp at h
  | cons es objects =>
    have hunited := uniteObjects_eq ⟨function, (es :: objects).map .obj⟩ [] 0 (es :: objects)
    dsimp only [bind, Except.bind, Args.value, List.map_cons, List.getElem?_cons_zero] at hunited ⊢
    rw [hunited]
    rfl

theorem union_two_arrays (xs ys : List Json) :
    union ⟨function, [.arr xs, .arr ys]⟩ = .ok (.arr (addItems (addItems [] xs) ys)) := by
  have h := union_arrays function [xs, ys] (Nat.le_refl 2)
  rwa [List.flatten_cons, List.flatten_cons, List.flatten_nil, List.append_nil, addItems_append] at h

theorem union_two_objects (es fs : Entries Json) :
    union ⟨function, [.obj es, .obj fs]⟩ = .ok (.obj (mergeEntries (mergeEntries [] es) fs)) :=
  union_objects function [es, fs] (Nat.le_refl 2)

theorem mergeEntries_nil {es : Entries Json} (h : es.Apart) : mergeEntries [] es = es :=
  mergeEntries_of_apart (List.nil_append es ▸ h)

theorem apart_foldl_mergeEntries {es : Entries Json} (h : es.Apart) (objects : List (Entries Json)) :
    Entries.Apart (objects.foldl mergeEntries es) := by
  induction objects generalizing es with
  | nil => exact h
  | cons fs objects ih => exact ih (apart_mergeEntries h fs)

theorem union_append_array {lists : List (List Json)} (h : 2 ≤ lists.length) (last : List Json) :
    ∃ u w, union ⟨function, lists.map .arr⟩ = .ok u ∧ union ⟨function, lists.map .arr ++ [.arr last]⟩ = .ok w ∧
      union ⟨function, [u, .arr last]⟩ = .ok w := by
  have hlast := union_arrays function (lists ++ [last]) (by simp; omega)
  rw [List.map_append, List.flatten_append, addItems_append, List.map_singleton, List.flatten_singleton] at hlast
  -- the union holds no item twice, so it is its own union with nothing
  have hagain : addItems [] (addItems [] lists.flatten) = addItems [] lists.flatten :=
    addItems_of_fresh (fresh_addItems List.Pairwise.nil _)
  refine ⟨_, _, union_arrays function lists h, hlast, ?_⟩
  rw [union_two_arrays, hagain]

theorem union_append_object {objects : List (Entries Json)} (h : 2 ≤ objects.length) (last : Entries Json) :
    ∃ u w, union ⟨function, objects.map .obj⟩ = .ok u ∧ union ⟨function, objects.map .obj ++ [.obj last]⟩ = .ok w ∧
      union ⟨function, [u, .obj last]⟩ = .ok w := by
  have hlast := union_objects function (objects ++ [last]) (by simp; omega)
  rw [List.map_append, List.foldl_append, List.map_singleton] at hlast
  refine ⟨_, _, union_objects function objects h, hlast, ?_⟩
  rw [union_two_objects, mergeEntries_nil (apart_foldl_mergeEntries .nil objects)]
  rfl

/-- A union is a left fold over its arguments, and of two objects it is a recursive merge: the names of the first, then
the new names of the second; under each name the union of its two values if both are objects, else the second value if
there is one, else the first. -/
theorem union_folds_and_merges :
    (∀ lists : List (List Json), 2 ≤ lists.length → ∀ last : List Json, ∃ u w,
      union ⟨function, lists.map .arr⟩ = .ok u ∧ union ⟨function, lists.map .arr ++ [.arr last]⟩ = .ok w ∧
        union ⟨function, [u, .arr last]⟩ = .ok w) ∧
    (∀ objects : List (Entries Json), 2 ≤ objects.length → ∀ last : Entries Json, ∃ u w,
      union ⟨function, objects.map .obj⟩ = .ok u ∧ union ⟨function, objects.map .obj ++ [.obj last]⟩ = .ok w ∧
        union ⟨function, [u, .obj last]⟩ = .ok w) ∧
    ∀ es fs : Entries Json, Json.Distinct (fun _ => True) (.obj es) → Json.Distinct (fun _ => True) (.obj fs) →
      ∃ us : Entries Json, union ⟨function, [.obj es, .obj fs]⟩ = .ok (.obj us) ∧
        us.keys = es.keys ++ fs.keys.filter (fun key => (es.getNamed? key).isNone) ∧
        ∀ name,
          (∀ xs ys, es.getNamed? name = some (.obj xs) → fs.getNamed? name = some (.obj ys) →
            ∃ w, union ⟨function, [.obj xs, .obj ys]⟩ = .ok w ∧ us.getNamed? name = some w) ∧
          ((∀ xs ys, ¬(es.getNamed? name = some (.obj xs) ∧ fs.getNamed? name = some (.obj ys))) →
            us.getNamed? name = (fs.getNamed? name).or (es.getNamed? name)) := by
  refine ⟨fun _ h => union_append_array function h, fun _ h => union_append_object function h, fun es fs he hf => ?_⟩
  refine ⟨mergeEntries es fs, ?_, keys_mergeEntries he.apart hf.apart,
    fun name => ⟨fun xs ys hx hy => ?_, fun hnot => ?_⟩⟩
  · rw [union_two_objects, mergeEntries_nil he.apart]
  · obtain ⟨key, hmem, -⟩ := exists_of_getNamed? hx
    refine ⟨.obj (mergeEntries xs ys), ?_, ?_⟩
    · rw [union_two_objects, mergeEntries_nil (he.values _ hmem).apart]
    · rw [getNamed?_mergeEntries he.apart hf.apart, hx, hy]
      rfl
  · rw [getNamed?_mergeEntries he.apart hf.apart]
    cases hx : es.getNamed? name with
    | none => rfl
    | some x =>
      cases hy : fs.getNamed? name with
      | none => rfl
      | some y =>
        cases x with
        | obj xs =>
          cases y with
          | obj ys => exact absurd ⟨hx, hy⟩ (hnot xs ys)
          | _ => rfl
        | _ => rfl

/-- Nested objects are merged under the names of the first. -/
theorem union_folds_and_merges_nested :
    (∃ u w, union ⟨"f", [.arr [.null], .arr [.str "s"]]⟩ = .ok u ∧
      union ⟨"f", [.arr [.null], .arr [.str "s"], .arr [.null]]⟩ = .ok w ∧ union ⟨"f", [u, .arr [.null]]⟩ = .ok w) ∧
    (∃ u w, union ⟨"f", [.obj [("a", .null)], .obj [("b", .null)]]⟩ = .ok u ∧
      union ⟨"f", [.obj [("a", .null)], .obj [("b", .null)], .obj [("A", .null)]]⟩ = .ok w ∧
      union ⟨"f", [u, .obj [("A", .null)]]⟩ = .ok w) ∧
    ∃ us : Entries Json,
      union ⟨"f", [.obj [("a", .obj [("x", .null)])], .obj [("b", .null), ("A", .obj [("X", .int 1)])]]⟩ =
        .ok (.obj us) ∧
      us.keys = ["a", "b"] ∧ us.getNamed? "B" = some .null ∧
      ∃ w, union ⟨"f", [.obj [("x", .null)], .obj [("X", .int 1)]]⟩ = .ok w ∧ us.getNamed? "a" = some w := by
  have hone (key : String) {v : Json} (hv : v.Distinct fun _ => True) : (Json.obj [(key, v)]).Distinct fun _ => True :=
    .obj (List.nodup_singleton _) (by simpa using hv)
  have hfirst := hone "a" (hone "x" .null)
  have hsecond : (Json.obj [("b", .null), ("A", .obj [("X", .int 1)])]).Distinct fun _ => True := by
    refine .obj (by decide) (List.forall_mem_cons.mpr ⟨.null, List.forall_mem_singleton.mpr ?_⟩)
    exact hone "X" (.num trivial)
  obtain ⟨harrays, hobjects, hmerge⟩ := union_folds_and_merges "f"
  obtain ⟨us, hus, hkeys, hvalues⟩ := hmerge _ _ hfirst hsecond
  refine ⟨harrays [[.null], [.str "s"]] (Nat.le_refl 2) [.null],
    hobjects [[("a", .null)], [("b", .null)]] (Nat.le_refl 2) [("A", .null)], us, hus, hkeys,
    (hvalues "B").2 ?_, (hvalues "a").1 _ _ rfl rfl⟩
  rintro xs ys ⟨h, -⟩
  cases h

/-! ### Arrays as sets -/

section

variable {a b : List Json} {x y : Json}

theorem elemAlike_iff {xs : List Json} : x.elemAlike xs = true ↔ ∃ y ∈ xs, y.alike x = true := List.any_eq_true

theorem elemAlike_append (x : Json) (xs ys : List Json) : x.elemAlike (xs ++ ys) = (x.elemAlike xs || x.elemAlike ys) :=
  List.any_append

theorem elemAlike_congr {xs : List Json} (hxs : ∀ v ∈ xs, v.Distinct Number.IsInt64) (hx : x.Distinct Number.IsInt64)
    (hy : y.Distinct Number.IsInt64) (h : x.alike y = true) : x.elemAlike xs = y.elemAlike xs := by
  rw [Bool.eq_iff_iff, elemAlike_iff, elemAlike_iff]
  exact exists_congr fun v => and_congr_right fun hv => Bool.eq_iff_iff.mp ((hxs v hv).alike_congr hx hy h)

theorem mem_of_mem_addItems {acc xs : List Json} (h : y ∈ addItems acc xs) : y ∈ acc ∨ y ∈ xs := by
  induction xs generalizing acc with
  | nil => exact .inl h
  | cons x xs ih =>
    rw [addItems_cons] at h
    rcases ih h with h | h
    · split at h
      · exact .inl h
      · rcases List.mem_append.mp h with h | h
        · exact .inl h
        · exact .inr (List.mem_singleton.mp h ▸ List.mem_cons_self)
    · exact .inr (List.mem_cons_of_mem _ h)

/-- What is held after items are added was held before or equals one of them. -/
theorem elemAlike_addItems {acc xs : List Json} (hacc : ∀ v ∈ acc, v.Distinct Number.IsInt64)
    (hxs : ∀ v ∈ xs, v.Distinct Number.IsInt64) (hy : y.Distinct Number.IsInt64) :
    y.elemAlike (addItems acc xs) = (y.elemAlike acc || y.elemAlike xs) := by
  induction xs generalizing acc with
  | nil => exact (Bool.or_false _).symm
  | cons x xs ih =>
    obtain ⟨hx, hxs⟩ := List.forall_mem_cons.mp hxs
    have hcons : y.elemAlike (x :: xs) = (x.alike y || y.elemAlike xs) := List.any_cons
    rw [addItems_cons, hcons]
    split
    · rename_i hold
      rw [ih hacc hxs]
      cases hxy : x.alike y with
      | false => rw [Bool.false_or]
      | true => rw [← elemAlike_congr hacc hx hy hxy, hold, Bool.true_or, Bool.true_or]
    · have hboth : ∀ v ∈ acc ++ [x], v.Distinct Number.IsInt64 := fun v hv => by
        rcases List.mem_append.mp hv with hv | hv
        · exact hacc v hv
        · exact List.mem_singleton.mp hv ▸ hx
      have hsingle : y.elemAlike [x] = x.alike y := Bool.or_false _
      rw [ih hboth hxs, elemAlike_append, hsingle, Bool.or_assoc]

def firsts (xs : List Json) : List Json := (xs.zipIdx.filter fun p => !p.1.elemAlike (xs.take p.2)).map Prod.fst

theorem firsts_concat (xs : List Json) (x : Json) :
    firsts (xs ++ [x]) = if x.elemAlike xs then firsts xs else firsts xs ++ [x] := by
  have hbefore : (xs.zipIdx.filter fun p => !p.1.elemAlike ((xs ++ [x]).take p.2)) =
      xs.zipIdx.filter fun p => !p.1.elemAlike (xs.take p.2) := by
    refine List.filter_congr fun p hp => ?_
    have hlt : p.2 < xs.length := (List.mem_zipIdx' hp).1
    rw [List.take_append_of_le_length (Nat.le_of_lt hlt)]
  unfold firsts
  rw [List.zipIdx_append, List.filter_append, hbefore, List.map_append]
  cases hx : x.elemAlike xs <;> simp [hx]

theorem addItems_concat (acc xs : List Json) (x : Json) :
    addItems acc (xs ++ [x]) = if x.elemAlike (addItems acc xs) then addItems acc xs else addItems acc xs ++ [x] := by
  rw [addItems_append]
  rfl

theorem elemAlike_addItems_nil {xs : List Json} (hxs : ∀ v ∈ xs, v.Distinct Number.IsInt64)
    (hy : y.Distinct Number.IsInt64) : y.elemAlike (addItems [] xs) = y.elemAlike xs :=
  elemAlike_addItems (List.forall_mem_nil _) hxs hy

theorem addItems_nil_eq_firsts {xs : List Json} (h : ∀ v ∈ xs, v.Distinct Number.IsInt64) :
    addItems [] xs = firsts xs := by
  induction xs using List.reverseRecOn with
  | nil => rfl
  | append_singleton xs x ih =>
    obtain ⟨hxs, hx⟩ := List.forall_mem_append.mp h
    rw [addItems_concat, elemAlike_addItems_nil hxs (hx x List.mem_cons_self), firsts_concat, ih hxs]

/-- What is added to items are the first of those that they do not hold. -/
theorem addItems_eq_append {acc xs : List Json} (hacc : ∀ v ∈ acc, v.Distinct Number.IsInt64)
    (hxs : ∀ v ∈ xs, v.Distinct Number.IsInt64) :
    addItems acc xs = acc ++ (addItems [] xs).filter fun y => !y.elemAlike acc := by
  induction xs using List.reverseRecOn with
  | nil => exact (List.append_nil acc).symm
  | append_singleton xs x ih =>
    obtain ⟨hxs, hx⟩ := List.forall_mem_append.mp hxs
    have hx := hx x List.mem_cons_self
    rw [addItems_concat, addItems_concat, elemAlike_addItems hacc hxs hx, elemAlike_addItems_nil hxs hx, ih hxs]
    cases hold : x.elemAlike acc <;> cases x.elemAlike xs <;> simp [hold]

/-- Items of a kind that equal items share are picked before or after each is kept once. -/
theorem addItems_filter {xs : List Json} {p : Json → Bool} (hxs : ∀ v ∈ xs, v.Distinct Number.IsInt64)
    (hp : ∀ v ∈ xs, ∀ w ∈ xs, v.alike w = true → p v = p w) :
    addItems [] (xs.filter p) = (addItems [] xs).filter p := by
  induction xs using List.reverseRecOn with
  | nil => rfl
  | append_singleton xs x ih =>
    obtain ⟨hxs', hx⟩ := List.forall_mem_append.mp hxs
    have hx := hx x List.mem_cons_self
    have hmem : x ∈ xs ++ [x] := List.mem_append_right _ List.mem_cons_self
    have ih := ih hxs' fun v hv w hw => hp v (List.mem_append_left _ hv) w (List.mem_append_left _ hw)
    rw [addItems_concat, List.filter_append, elemAlike_addItems_nil hxs' hx]
    cases hpx : p x with
    | false =>
      rw [List.filter_singleton, hpx]
      cases x.elemAlike xs <;> simp [ih, hpx]
    | true =>
      have hpicked : x.elemAlike (xs.filter p) = x.elemAlike xs := by
        rw [Bool.eq_iff_iff, elemAlike_iff, elemAlike_iff]
        refine exists_congr fun v => ⟨fun ⟨hv, h⟩ => ⟨(List.mem_filter.mp hv).1, h⟩, fun ⟨hv, h⟩ => ⟨?_, h⟩⟩
        exact List.mem_filter.mpr ⟨hv, (hp v (List.mem_append_left _ hv) x hmem h).trans hpx⟩
      have hfiltered : ∀ v ∈ xs.filter p, v.Distinct Number.IsInt64 := fun v hv => hxs' v (List.mem_filter.mp hv).1
      rw [List.filter_singleton, hpx]
      show addItems [] (xs.filter p ++ [x]) = _
      rw [addItems_concat, elemAlike_addItems_nil hfiltered hx, hpicked, ih]
      cases x.elemAlike xs <;> simp [hpx]

/-- Where the items of one list that equal an item of another are held. -/
theorem elemAlike_filter {xs ys : List Json} (hxs : ∀ v ∈ xs, v.Distinct Number.IsInt64)
    (hys : ∀ v ∈ ys, v.Distinct Number.IsInt64) (hx : x.Distinct Number.IsInt64) :
    x.elemAlike (xs.filter fun v => v.elemAlike ys) = (x.elemAlike xs && x.elemAlike ys) := by
  rw [Bool.eq_iff_iff, Bool.and_eq_true, elemAlike_iff, elemAlike_iff]
  constructor
  · rintro ⟨v, hv, h⟩
    obtain ⟨hv, hshared⟩ := List.mem_filter.mp hv
    exact ⟨⟨v, hv, h⟩, by rwa [← elemAlike_congr hys (hxs v hv) hx h]⟩
  · rintro ⟨⟨v, hv, h⟩, hshared⟩
    exact ⟨v, List.mem_filter.mpr ⟨hv, by rwa [elemAlike_congr hys (hxs v hv) hx h]⟩, h⟩

theorem findIdx?_congr {xs : List Json} {p q : Json → Bool} (h : ∀ v ∈ xs, p v = q v) :
    xs.findIdx? p = xs.findIdx? q := by
  induction xs with
  | nil => rfl
  | cons x xs ih =>
    obtain ⟨hx, hxs⟩ := List.forall_mem_cons.mp h
    rw [List.findIdx?_cons, List.findIdx?_cons, hx, ih hxs]

theorem intersectArrays_eq (args : Args) (ys acc xs : List Json) :
    intersectArrays args [.arr ys] acc xs = .ok (addItems acc (xs.filter fun x => x.elemAlike ys)) := by
  induction xs generalizing acc with
  | nil => rfl
  | cons x xs ih =>
    have hall : inAllArrays args x 1 [.arr ys] = .ok (x.elemAlike ys) := by
      unfold inAllArrays inAllArrays
      cases x.elemAlike ys <;> rfl
    rw [intersectArrays, hall]
    dsimp only [bind, Except.bind]
    rw [ih, List.filter_cons]
    cases x.elemAlike ys with
    | false => rfl
    | true =>
      rw [if_pos rfl, addItems_cons]
      cases x.elemAlike acc <;> rfl

theorem intersection_arrays (xs ys : List Json) :
    intersection ⟨function, [.arr xs, .arr ys]⟩ = .ok (.arr (addItems [] (xs.filter fun x => x.elemAlike ys))) := by
  have hcount : (⟨function, [.arr xs, .arr ys]⟩ : Args).expect 2 none = .ok () := expect_two function (Nat.le_refl 2)
  unfold intersection
  rw [hcount]
  dsimp only [bind, Except.bind, Args.value, List.getElem?_cons_zero, List.tail_cons]
  rw [intersectArrays_eq]
  rfl

theorem contains_array (xs : List Json) (x : Json) :
    contains ⟨function, [.arr xs, x]⟩ = .ok (.bool (x.elemAlike xs)) := rfl

theorem equals_eq (x y : Json) : Logic.equals ⟨function, [x, y]⟩ = .ok (.bool (x.alike y)) := rfl

theorem position_array (xs : List Json) (x : Json) :
    position false ⟨function, [.arr xs, x]⟩ =
      .ok (.int (((xs.findIdx? fun v => v.alike x).map fun i : Nat => (i : Int)).getD (-1))) := by
  have hcount : (⟨function, [.arr xs, x]⟩ : Args).exactly 2 = .ok () := rfl
  unfold position
  rw [hcount]
  dsimp only [bind, Except.bind, Args.value, List.getElem?_cons_zero, List.getElem?_cons_succ]
  rw [if_neg Bool.false_ne_true]
  cases xs.findIdx? fun v => v.alike x <;> rfl

theorem distinct_addItems_nil {xs : List Json} (h : ∀ v ∈ xs, v.Distinct Number.IsInt64) :
    ∀ v ∈ addItems [] xs, v.Distinct Number.IsInt64 := fun v hv =>
  h v ((mem_of_mem_addItems hv).resolve_left List.not_mem_nil)

theorem Fresh.pairwise_equals {xs : List Json} (h : Fresh xs) (hd : ∀ v ∈ xs, v.Distinct Number.IsInt64) :
    xs.Pairwise fun x y => Logic.equals ⟨function, [x, y]⟩ = .ok (.bool false) ∧
      Logic.equals ⟨function, [y, x]⟩ = .ok (.bool false) := by
  refine h.imp_of_mem fun {x y} hx hy hxy => ⟨by rw [equals_eq, hxy], ?_⟩
  have hyx : y.alike x = false := Bool.eq_false_iff.mpr fun hyx =>
    absurd ((hd y hy).alike_symm (hd x hx) hyx) (by simp [hxy])
  rw [equals_eq, hyx]

/-- Unions and intersections of arrays are those of sets, kept in the order in which items first occur; equal items are
found at one place. -/
theorem arrays_are_sets (ha : Json.Distinct Number.IsInt64 (.arr a)) (hb : Json.Distinct Number.IsInt64 (.arr b)) :
    ∃ u i, union ⟨function, [.arr a, .arr b]⟩ = .ok (.arr u) ∧
      intersection ⟨function, [.arr a, .arr b]⟩ = .ok (.arr i) ∧
      (∀ x, x.Distinct Number.IsInt64 → ∃ inFirst inSecond,
        contains ⟨function, [.arr a, x]⟩ = .ok (.bool inFirst) ∧
        contains ⟨function, [.arr b, x]⟩ = .ok (.bool inSecond) ∧
        contains ⟨function, [.arr u, x]⟩ = .ok (.bool (inFirst || inSecond)) ∧
        contains ⟨function, [.arr i, x]⟩ = .ok (.bool (inFirst && inSecond))) ∧
      (∀ items ∈ [u, i], items.Pairwise fun x y => Logic.equals ⟨function, [x, y]⟩ = .ok (.bool false) ∧
        Logic.equals ⟨function, [y, x]⟩ = .ok (.bool false)) ∧
      u = firsts a ++ (firsts b).filter (fun y => !y.elemAlike a) ∧ i = (firsts a).filter (fun y => y.elemAlike b) ∧
      ∀ x y, x.Distinct Number.IsInt64 → y.Distinct Number.IsInt64 →
        Logic.equals ⟨function, [x, y]⟩ = .ok (.bool true) →
        ∃ place, position false ⟨function, [.arr a, x]⟩ = .ok (.int place) ∧
          position false ⟨function, [.arr a, y]⟩ = .ok (.int place) := by
  have ha := ha.items
  have hb := hb.items
  have hfirst := distinct_addItems_nil ha
  have hsecond := distinct_addItems_nil hb
  have hshared : ∀ v ∈ a.filter fun x => x.elemAlike b, v.Distinct Number.IsInt64 := fun v hv =>
    ha v (List.mem_filter.mp hv).1
  have hunion : addItems (addItems [] a) b = firsts a ++ (firsts b).filter fun y => !y.elemAlike a := by
    rw [addItems_eq_append hfirst hb, addItems_nil_eq_firsts ha, addItems_nil_eq_firsts hb]
    refine congrArg (firsts a ++ ·) (List.filter_congr fun y hy => ?_)
    rw [← addItems_nil_eq_firsts ha, elemAlike_addItems_nil ha (hsecond y (addItems_nil_eq_firsts hb ▸ hy))]
  have hintersection : addItems [] (a.filter fun x => x.elemAlike b) = (firsts a).filter fun y => y.elemAlike b := by
    rw [addItems_filter ha fun v hv w hw h => elemAlike_congr hb (ha v hv) (ha w hw) h, addItems_nil_eq_firsts ha]
  refine ⟨_, _, union_two_arrays function a b, intersection_arrays function a b, fun x hx => ?_, ?_, hunion,
    hintersection, fun x y hx hy hxy => ?_⟩
  · refine ⟨_, _, contains_array function a x, contains_array function b x, ?_, ?_⟩
    · rw [contains_array, elemAlike_addItems hfirst hb hx, elemAlike_addItems_nil ha hx]
    · rw [contains_array, elemAlike_addItems_nil hshared hx, elemAlike_filter ha hb hx]
  · refine List.forall_mem_cons.mpr ⟨?_, List.forall_mem_singleton.mpr ?_⟩
    · refine (fresh_addItems (fresh_addItems .nil a) b).pairwise_equals function fun v hv => ?_
      rcases mem_of_mem_addItems hv with hv | hv
      · exact hfirst v hv
      · exact hb v hv
    · exact (fresh_addItems .nil _).pairwise_equals function (distinct_addItems_nil hshared)
  · have hxy : x.alike y = true := by simpa [equals_eq] using hxy
    have hplace : (a.findIdx? fun v => v.alike x) = a.findIdx? fun v => v.alike y :=
      findIdx?_congr fun v hv => (ha v hv).alike_congr hx hy hxy
    exact ⟨_, position_array function a x, by rw [position_array, hplace]⟩

/-- Objects that differ in the case of a name are one item. -/
theorem arrays_are_sets_of_objects :
    Json.Distinct Number.IsInt64 (.arr [.obj [("a", .int 1)], .str "1"]) ∧
    ∃ u i, union ⟨"f", [.arr [.obj [("a", .int 1)], .str "1"], .arr [.obj [("A", .int 1)]]]⟩ = .ok (.arr u) ∧
      intersection ⟨"f", [.arr [.obj [("a", .int 1)], .str "1"], .arr [.obj [("A", .int 1)]]]⟩ = .ok (.arr i) ∧
      u = [.obj [("a", .int 1)], .str "1"] ∧ i = [.obj [("a", .int 1)]] ∧
      ∃ place, position false ⟨"f", [.arr [.obj [("a", .int 1)], .str "1"], .obj [("a", .int 1)]]⟩ = .ok (.int place) ∧
        position false ⟨"f", [.arr [.obj [("a", .int 1)], .str "1"], .obj [("A", .int 1)]]⟩ = .ok (.int place) := by
  have hone : (Json.int 1).Distinct Number.IsInt64 := .num (.int (by decide))
  have hobject (key : String) : (Json.obj [(key, .int 1)]).Distinct Number.IsInt64 :=
    .obj (List.nodup_singleton _) (by simpa using hone)
  have ha : Json.Distinct Number.IsInt64 (.arr [.obj [("a", .int 1)], .str "1"]) :=
    .arr (by simpa using ⟨hobject "a", .str "1"⟩)
  have hb : Json.Distinct Number.IsInt64 (.arr [.obj [("A", .int 1)]]) := .arr (by simpa using hobject "A")
  obtain ⟨u, i, hu, hi, -, -, hu', hi', hplace⟩ := arrays_are_sets "f" ha hb
  exact ⟨ha, u, i, hu, hi, hu', hi', hplace _ _ (hobject "a") (hobject "A") rfl⟩

end

end ResourceTemplate.Catalog.Collections
