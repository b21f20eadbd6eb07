import Mathlib.Data.List.Forall2
import Mathlib.Data.List.Perm.Subperm
import ResourceTemplate.Json.Basic
import ResourceTemplate.Proofs.Catalog.Arithmetic
import ResourceTemplate.Proofs.Entries

namespace ResourceTemplate

inductive Number.IsInt64 : Number → Prop
  | int {n : Int} (h : Integer.Fits n) : IsInt64 (.int n)

theorem Number.IsInt64.alike_iff {m n : Number} (hm : m.IsInt64) (hn : n.IsInt64) : m.alike n = true ↔ m = n := by
  obtain ⟨hm⟩ := hm
  obtain ⟨hn⟩ := hn
  simp [alike, toInt64?, inRange?_of_fits hm, inRange?_of_fits hn]

namespace Json

/-- Values whose numbers are of some kind, and whose objects, at every depth, hold no two names that are the same up
to case. -/
inductive Distinct (number : Number → Prop) : Json → Prop
  | null : Distinct number .null
  | bool (b : Bool) : Distinct number (.bool b)
  | num {n : Number} (h : number n) : Distinct number (.num n)
  | str (s : String) : Distinct number (.str s)
  | arr {items : List Json} (h : ∀ v ∈ items, Distinct number v) : Distinct number (.arr items)
  | obj {entries : Entries Json} (hk : entries.Apart) (h : ∀ e ∈ entries, Distinct number e.2) :
      Distinct number (.obj entries)

section

variable {number : Number → Prop}

theorem Distinct.items {items : List Json} (h : Distinct number (.arr items)) : ∀ v ∈ items, Distinct number v := by
  cases h with
  | arr h => exact h

theorem Distinct.apart {entries : Entries Json} (h : Distinct number (.obj entries)) : entries.Apart := by
  cases h with
  | obj hk h => exact hk

theorem Distinct.values {entries : Entries Json} (h : Distinct number (.obj entries)) :
    ∀ e ∈ entries, Distinct number e.2 := by
  cases h with
  | obj hk h => exact h

end

theorem alikeItems_iff {xs ys : List Json} :
    alikeItems xs ys = true ↔ List.Forall₂ (fun x y => alike x y = true) xs ys := by
  induction xs generalizing ys with
  | nil => cases ys <;> simp [alikeItems]
  | cons x xs ih => cases ys <;> simp [alikeItems, ih]

/-- Each entry of the first object has its name in the second, with an equal value. -/
theorem alikeEntries_iff {xs ys : Entries Json} (hy : ys.Apart) :
    alikeEntries xs ys = true ↔ ∀ e ∈ xs, ∃ f ∈ ys, Name.fold e.1 = Name.fold f.1 ∧ alike e.2 f.2 = true := by
  induction xs with
  | nil => simp [alikeEntries]
  | cons e xs ih =>
    rw [alikeEntries, Bool.and_eq_true, ih, List.forall_mem_cons]
    refine and_congr_left fun _ => ⟨fun h => ?_, ?_⟩
    · split at h
      · rename_i w hw
        obtain ⟨key, hmem, hkey⟩ := Entries.exists_of_getNamed? hw
        exact ⟨(key, w), hmem, hkey.symm, h⟩
      · cases h
    · rintro ⟨f, hf, hfold, halike⟩
      rw [hy.getNamed?_of_mem hf hfold.symm]
      exact halike

theorem Distinct.alike_self {v : Json} (h : Distinct Number.IsInt64 v) : alike v v = true := by
  induction h with
  | null => rfl
  | bool b => simp [alike]
  | num h => exact (h.alike_iff h).mpr rfl
  | str s => simp [alike]
  | arr h ih => exact alikeItems_iff.mpr (List.forall₂_same.mpr ih)
  | obj hk h ih =>
    rw [alike, beq_self_eq_true, Bool.true_and, alikeEntries_iff hk]
    exact fun e he => ⟨e, he, rfl, ih e he⟩

/-- Where one object holds the names of another of its size, the other holds its names. -/
theorem exists_fold_of_length {xs ys : Entries Json} (hx : xs.Apart) (hl : xs.length = ys.length)
    (h : ∀ e ∈ xs, ∃ f ∈ ys, Name.fold e.1 = Name.fold f.1) :
    ∀ f ∈ ys, ∃ e ∈ xs, Name.fold e.1 = Name.fold f.1 := by
  have hsub : xs.keys.map Name.fold ⊆ ys.keys.map Name.fold := by
    intro key hkey
    simp only [Entries.keys, List.map_map, List.mem_map, Function.comp] at hkey ⊢
    obtain ⟨e, he, rfl⟩ := hkey
    obtain ⟨f, hf, hfold⟩ := h e he
    exact ⟨f, hf, hfold.symm⟩
  have hperm : (xs.keys.map Name.fold).Perm (ys.keys.map Name.fold) :=
    (List.subperm_of_subset hx hsub).perm_of_length_le (by simp [Entries.keys, hl])
  intro f hf
  have hmem : Name.fold f.1 ∈ xs.keys.map Name.fold :=
    hperm.mem_iff.mpr (List.mem_map_of_mem (List.mem_map_of_mem hf))
  simpa [Entries.keys] using hmem

/-- Where the entries of one object have partners in another of its size, those of the other have them as well: no two
entries share a partner. -/
theorem exists_partner {xs ys : Entries Json} (hx : xs.Apart) (hy : ys.Apart) (hl : xs.length = ys.length)
    {Q : String × Json → String × Json → Prop} (h : ∀ e ∈ xs, ∃ f ∈ ys, Name.fold e.1 = Name.fold f.1 ∧ Q e f) :
    ∀ f ∈ ys, ∃ e ∈ xs, Name.fold e.1 = Name.fold f.1 ∧ Q e f := by
  intro f hf
  obtain ⟨e, he, hfold⟩ := exists_fold_of_length hx hl (fun e he => (h e he).imp fun f hf => ⟨hf.1, hf.2.1⟩) f hf
  obtain ⟨f', hf', hfold', hQ⟩ := h e he
  obtain rfl := hy.eq_of_fold hf hf' (hfold.symm.trans hfold')
  exact ⟨e, he, hfold, hQ⟩

/-- Induction on two values that are equal: values that hold no others are the same, arrays are compared item by item,
and of objects each entry of the first has a partner in the second. -/
theorem Distinct.alike_induction {P : Json → Json → Prop}
    (same : ∀ v, Distinct Number.IsInt64 v → (∀ xs, v ≠ .arr xs) → (∀ xs, v ≠ .obj xs) → P v v)
    (arr : ∀ xs ys, Distinct Number.IsInt64 (.arr xs) → Distinct Number.IsInt64 (.arr ys) →
      List.Forall₂ (fun x y => alike x y = true ∧ P x y) xs ys → P (.arr xs) (.arr ys))
    (obj : ∀ xs ys, Distinct Number.IsInt64 (.obj xs) → Distinct Number.IsInt64 (.obj ys) → xs.length = ys.length →
      (∀ e ∈ xs, ∃ f ∈ ys, Name.fold e.1 = Name.fold f.1 ∧ alike e.2 f.2 = true ∧ P e.2 f.2) → P (.obj xs) (.obj ys))
    {v w : Json} (hv : Distinct Number.IsInt64 v) (hw : Distinct Number.IsInt64 w) (h : alike v w = true) : P v w := by
  induction hv generalizing w with
  | null =>
    cases hw with
    | null => exact same _ .null (by simp) (by simp)
    | _ => cases h
  | bool b =>
    cases hw with
    | bool c =>
      obtain rfl : b = c := by simpa [alike] using h
      exact same _ (.bool b) (by simp) (by simp)
    | _ => cases h
  | num hm =>
    cases hw with
    | num hn =>
      obtain rfl := (hm.alike_iff hn).mp h
      exact same _ (.num hm) (by simp) (by simp)
    | _ => cases h
  | str s =>
    cases hw with
    | str t =>
      obtain rfl : s = t := by simpa [alike] using h
      exact same _ (.str s) (by simp) (by simp)
    | _ => cases h
  | @arr xs hxs ih =>
    cases hw with
    | @arr ys hys =>
      obtain ⟨hl, hitems⟩ := List.forall₂_iff_zip.mp (alikeItems_iff.mp h)
      refine arr xs ys (.arr hxs) (.arr hys) (List.forall₂_iff_zip.mpr ⟨hl, fun {x y} hp => ⟨hitems hp, ?_⟩⟩)
      obtain ⟨hx, hy⟩ := List.of_mem_zip hp
      exact ih x hx (hys y hy) (hitems hp)
    | _ => cases h
  | @obj xs hxs hvs ih =>
    cases hw with
    | @obj ys hys hws =>
      rw [alike, Bool.and_eq_true, beq_iff_eq, alikeEntries_iff hys] at h
      refine obj xs ys (.obj hxs hvs) (.obj hys hws) h.1 fun e he => ?_
      obtain ⟨f, hf, hfold, halike⟩ := h.2 e he
      exact ⟨f, hf, hfold, halike, ih e he (hws f hf) halike⟩
    | _ => cases h

theorem Distinct.alike_symm {v w : Json} (hv : Distinct Number.IsInt64 v) (hw : Distinct Number.IsInt64 w)
    (h : alike v w = true) : alike w v = true := by
  refine Distinct.alike_induction (P := fun v w => alike w v = true) ?same ?arr ?obj hv hw h
  case same => exact fun v hv _ _ => hv.alike_self
  case arr => exact fun xs ys _ _ h => alikeItems_iff.mpr (h.imp fun _ _ h => h.2).flip
  case obj =>
    intro xs ys hx hy hl h
    rw [alike, Bool.and_eq_true, beq_iff_eq, alikeEntries_iff hx.apart]
    refine ⟨hl.symm, fun f hf => ?_⟩
    obtain ⟨e, he, hfold, -, halike⟩ := exists_partner hx.apart hy.apart hl h f hf
    exact ⟨e, he, hfold.symm, halike⟩

theorem Distinct.alike_trans {u v w : Json} (hu : Distinct Number.IsInt64 u) (hv : Distinct Number.IsInt64 v)
    (hw : Distinct Number.IsInt64 w) (huv : alike u v = true) (hvw : alike v w = true) : alike u w = true := by
  refine Distinct.alike_induction (P := fun u v => ∀ w, Distinct Number.IsInt64 w → alike v w = true → alike u w = true)
    ?same ?arr ?obj hu hv huv w hw hvw
  case same => exact fun v _ _ _ w _ hvw => hvw
  case arr =>
    intro xs ys _ _ hfirst w hw hvw
    cases hw with
    | @arr zs hzs =>
      have hsecond := alikeItems_iff.mp hvw
      have hlength := hfirst.length_eq.trans hsecond.length_eq
      refine alikeItems_iff.mpr (List.forall₂_iff_get.mpr ⟨hlength, fun i hi hi' => ?_⟩)
      have hiy : i < ys.length := hfirst.length_eq ▸ hi
      exact ((List.forall₂_iff_get.mp hfirst).2 i hi hiy).2 _ (hzs _ (List.get_mem _ _))
        ((List.forall₂_iff_get.mp hsecond).2 i hiy hi')
    | _ => cases hvw
  case obj =>
    intro xs ys _ _ hl hfirst w hw hvw
    cases hw with
    | @obj zs hzs hws =>
      rw [alike, Bool.and_eq_true, beq_iff_eq, alikeEntries_iff hzs] at hvw ⊢
      refine ⟨hl.trans hvw.1, fun e he => ?_⟩
      obtain ⟨f, hf, hfold, -, hnext⟩ := hfirst e he
      obtain ⟨g, hg, hfold', halike⟩ := hvw.2 f hf
      exact ⟨g, hg, hfold.trans hfold', hnext _ (hws g hg) halike⟩
    | _ => cases hvw

theorem Distinct.alike_congr {u v w : Json} (hu : Distinct Number.IsInt64 u) (hv : Distinct Number.IsInt64 v)
    (hw : Distinct Number.IsInt64 w) (h : alike v w = true) : alike u v = alike u w := by
  rw [Bool.eq_iff_iff]
  exact ⟨fun huv => hu.alike_trans hv hw huv h, fun huw => hu.alike_trans hw hv huw (hv.alike_symm hw h)⟩

/-- Values that are equal up to the order of the names of their objects and the case of these names: the entries of
one object, in some order, have the names of the other one by one, and values that are equal so. -/
inductive SameButNames : Json → Json → Prop
  | null : SameButNames .null .null
  | bool (b : Bool) : SameButNames (.bool b) (.bool b)
  | num (n : Number) : SameButNames (.num n) (.num n)
  | str (s : String) : SameButNames (.str s) (.str s)
  | arr {xs ys : List Json} (hl : xs.length = ys.length) (h : ∀ p ∈ xs.zip ys, SameButNames p.1 p.2) :
      SameButNames (.arr xs) (.arr ys)
  | obj {xs zs ys : Entries Json} (hp : xs.Perm zs) (hl : zs.length = ys.length)
      (hk : ∀ p ∈ zs.zip ys, Name.fold p.1.1 = Name.fold p.2.1)
      (h : ∀ p ∈ zs.zip ys, SameButNames p.1.2 p.2.2) : SameButNames (.obj xs) (.obj ys)

/-- Entries among which each of as many others, with names apart, has a partner are these partners in some order. -/
theorem exists_perm_map {xs ys : Entries Json} (hy : ys.Apart) (hl : xs.length = ys.length)
    {partner : String × Json → String × Json}
    (h : ∀ f ∈ ys, partner f ∈ xs ∧ Name.fold (partner f).1 = Name.fold f.1) : xs.Perm (ys.map partner) := by
  have hnames : (Entries.keys (ys.map partner)).map Name.fold = ys.keys.map Name.fold := by
    simp only [Entries.keys, List.map_map]
    exact List.map_congr_left fun f hf => (h f hf).2
  have hfolded : ((Entries.keys (ys.map partner)).map Name.fold).Nodup := hnames ▸ hy
  have hnodup : (ys.map partner).Nodup := hfolded.of_map.of_map
  have hsub : ys.map partner ⊆ xs := fun e he => by
    obtain ⟨f, hf, rfl⟩ := List.mem_map.mp he
    exact (h f hf).1
  exact ((List.subperm_of_subset hnodup hsub).perm_of_length_le (by rw [List.length_map, hl])).symm

theorem Distinct.sameButNames {v w : Json} (hv : Distinct Number.IsInt64 v) (hw : Distinct Number.IsInt64 w)
    (h : alike v w = true) : SameButNames v w := by
  refine Distinct.alike_induction ?same ?arr ?obj hv hw h
  case same =>
    intro v _ harr hobj
    cases v with
    | null => exact .null
    | bool b => exact .bool b
    | num n => exact .num n
    | str s => exact .str s
    | arr xs => exact absurd rfl (harr xs)
    | obj xs => exact absurd rfl (hobj xs)
  case arr =>
    intro xs ys _ _ h
    obtain ⟨hl, hitems⟩ := List.forall₂_iff_zip.mp h
    exact .arr hl fun p hp => (hitems hp).2
  case obj =>
    intro xs ys hx hy hl h
    have hpartner := exists_partner hx.apart hy.apart hl h
    choose! partner hmem hfold _ hsame using hpartner
    have hpairs : (ys.map partner).zip ys = ys.map fun f => (partner f, f) := by
      simpa using List.zip_map' (l := ys) (f := partner) (g := id)
    refine .obj (exists_perm_map hy.apart hl fun f hf => ⟨hmem f hf, hfold f hf⟩) (List.length_map _)
      (fun p hp => ?_) fun p hp => ?_
    · obtain ⟨f, hf, rfl⟩ := List.mem_map.mp (hpairs ▸ hp)
      exact hfold f hf
    · obtain ⟨f, hf, rfl⟩ := List.mem_map.mp (hpairs ▸ hp)
      exact hsame f hf

theorem exists_mem_zip {α β : Type} {xs : List α} {ys : List β} (hl : xs.length = ys.length) {x : α} (hx : x ∈ xs) :
    ∃ y, (x, y) ∈ xs.zip ys := by
  rw [← List.map_fst_zip hl.le] at hx
  obtain ⟨⟨x, y⟩, hp, rfl⟩ := List.mem_map.mp hx
  exact ⟨y, hp⟩

/-- Values are told apart exactly by what is more than the order and the case of names. -/
theorem Distinct.alike_iff {v w : Json} (hv : Distinct Number.IsInt64 v) (hw : Distinct Number.IsInt64 w) :
    alike v w = true ↔ SameButNames v w := by
  refine ⟨hv.sameButNames hw, fun h => ?_⟩
  induction h with
  | null => rfl
  | bool b => simp [alike]
  | num n => exact hv.alike_self
  | str s => simp [alike]
  | arr hl h ih =>
    refine alikeItems_iff.mpr (List.forall₂_iff_zip.mpr ⟨hl, fun {x y} hp => ?_⟩)
    obtain ⟨hx, hy⟩ := List.of_mem_zip hp
    exact ih (x, y) hp (hv.items x hx) (hw.items y hy)
  | @obj xs zs ys hperm hl hk h ih =>
    rw [alike, Bool.and_eq_true, beq_iff_eq, alikeEntries_iff hw.apart]
    refine ⟨hperm.length_eq.trans hl, fun e he => ?_⟩
    obtain ⟨f, hp⟩ := exists_mem_zip hl (hperm.mem_iff.mp he)
    obtain ⟨-, hf⟩ := List.of_mem_zip hp
    exact ⟨f, hf, hk _ hp, ih _ hp (hv.values e he) (hw.values f hf)⟩

/-- Equality of values is an equivalence on those whose numbers are integers of 64 bits and whose names are apart, and
its classes are the values that are equal up to the order and the case of names. -/
theorem alike_equivalence :
    Equivalence (fun v w : {v : Json // v.Distinct Number.IsInt64} => alike v.1 w.1 = true) ∧
      ∀ v w : {v : Json // v.Distinct Number.IsInt64}, alike v.1 w.1 = true ↔ SameButNames v.1 w.1 :=
  ⟨⟨fun v => v.2.alike_self, fun {v w} h => v.2.alike_symm w.2 h, fun {u v w} h h' => u.2.alike_trans v.2 w.2 h h'⟩,
    fun v w => v.2.alike_iff w.2⟩

/-- Where an object holds one name in two spellings, equality depends on the side on which it stands. -/
example :
    alike (.obj [("a", .int 1), ("A", .int 1)]) (.obj [("a", .int 1), ("b", .int 2)]) = true ∧
      alike (.obj [("a", .int 1), ("b", .int 2)]) (.obj [("a", .int 1), ("A", .int 1)]) = false := by
  decide

end Json
end ResourceTemplate
