import Mathlib.Data.List.Basic
import Mathlib.Data.List.Nodup
import ResourceTemplate.Json.Entries

namespace ResourceTemplate

theorem Name.fold_fold (s : String) : fold (fold s) = fold s := by
  have hlow (c : Char) : c.toLower.toLower = c.toLower := by
    refine dif_neg fun h => ?_
    unfold Char.toLower at h
    split at h
    next hupper =>
      simp [UInt32.le_iff_toNat_le] at hupper h
      omega
    next hupper => exact hupper h
  rw [fold, fold, String.toList_ofList, List.map_map]
  exact congrArg String.ofList (List.map_congr_left fun c _ => hlow c)

namespace Entries

variable {α β : Type}

@[simp] theorem get?_nil (key : String) : get? ([] : Entries α) key = none := rfl

theorem get?_cons (e : String × α) (es : Entries α) (key : String) :
    get? (e :: es) key = if e.1 == key then some e.2 else get? es key := by
  unfold get?
  rw [List.find?_cons]
  cases e.1 == key <;> rfl

theorem get?_append (es fs : Entries α) (key : String) :
    get? (es ++ fs) key = (get? es key).or (get? fs key) := by
  unfold get?
  rw [List.find?_append]
  cases List.find? (fun e => e.1 == key) es <;> rfl

theorem get?_map (f : α → β) (es : Entries α) (key : String) :
    get? (es.map fun e => (e.1, f e.2)) key = (get? es key).map f := by
  induction es with
  | nil => rfl
  | cons e es ih =>
    rw [List.map_cons, get?_cons, get?_cons, ih]
    cases e.1 == key <;> rfl

theorem get?_eq_none_iff {es : Entries α} {key : String} : get? es key = none ↔ es.has key = false := by
  simp [get?, has]

theorem has_iff {es : Entries α} {key : String} : es.has key = true ↔ key ∈ es.keys := by
  simp [has, keys]

theorem get?_replace (es : Entries α) (key name : String) (v : α) :
    get? (es.replace key v) name = if name = key then (get? es name).map fun _ => v else get? es name := by
  induction es with
  | nil => simp [replace]
  | cons e es ih =>
    have hr : replace (e :: es) key v =
        (if e.1 == key then (e.1, v) else e) :: replace es key v := rfl
    rw [hr, get?_cons, get?_cons, ih]
    by_cases hk : e.1 = key
    · subst hk
      by_cases hn : name = e.1
      · simp [hn]
      · simp [hn, Ne.symm hn]
    · simp [hk]
      by_cases hn : name = key
      · subst hn
        simp [hk]
      · simp [hn]

theorem get?_insert (es : Entries α) (key name : String) (v : α) :
    get? (es.insert key v) name = if name = key then some v else get? es name := by
  unfold insert
  by_cases hk : es.has key = true
  · rw [if_pos hk, get?_replace]
    by_cases hn : name = key
    · subst hn
      cases hg : get? es name with
      | some _ => simp
      | none => simp [get?_eq_none_iff.mp hg] at hk
    · simp [hn]
  · have hg : get? es key = none := get?_eq_none_iff.mpr (by simpa using hk)
    rw [if_neg hk, get?_append, get?_cons]
    by_cases hn : name = key
    · subst hn
      simp [hg]
    · simp [hn, Ne.symm hn]

/-- A name under which entries are kept that it passes for has the value that it had. -/
theorem get?_filter (es : Entries α) {p : String → Bool} {key : String} (hp : p key = true) :
    get? (es.filter fun e => p e.1) key = get? es key := by
  induction es with
  | nil => rfl
  | cons e es ih =>
    rw [get?_cons]
    by_cases hk : e.1 = key
    · rw [List.filter_cons_of_pos (by simp [hk, hp]), get?_cons, hk]
      simp
    · rw [if_neg (by simpa using hk), ← ih]
      rw [List.filter_cons]
      split
      · rw [get?_cons, if_neg (by simpa using hk)]
      · rfl

theorem get?_erase (es : Entries α) (key name : String) :
    get? (es.erase key) name = if name = key then none else get? es name := by
  by_cases hn : name = key
  · rw [if_pos hn, get?_eq_none_iff, has, List.any_eq_false]
    intro e he heq
    have hne := (List.mem_filter.mp he).2
    rw [beq_iff_eq.mp heq, hn] at hne
    simp at hne
  · rw [if_neg hn, erase, get?_filter es (p := (· != key)) (by simpa using hn)]

theorem replace_of_not_has {es : Entries α} {key : String} (h : es.has key = false) (v : α) :
    es.replace key v = es := by
  refine (List.map_congr_left fun e he => ?_).trans (List.map_id es)
  exact if_neg (List.any_eq_false.mp h e he)

theorem replace_replace (es : Entries α) (key : String) (v w : α) :
    (es.replace key v).replace key w = es.replace key w := by
  unfold replace
  rw [List.map_map]
  apply List.map_congr_left
  intro e _
  by_cases he : e.1 = key
  · simp [he]
  · simp [he]

theorem insert_insert (es : Entries α) (key : String) (v w : α) :
    (es.insert key v).insert key w = es.insert key w := by
  have hv : (es.insert key v).has key = true := by
    have hg : get? (es.insert key v) key ≠ none := by simp [get?_insert]
    simpa [get?_eq_none_iff] using hg
  rw [insert, if_pos hv]
  unfold insert
  cases hk : es.has key with
  | true => rw [if_pos rfl, if_pos rfl, replace_replace]
  | false =>
    have happ : replace (es ++ [(key, v)]) key w = es.replace key w ++ [(key, w)] := by
      simp [replace]
    rw [if_neg Bool.false_ne_true, if_neg Bool.false_ne_true, happ, replace_of_not_has hk]

theorem erase_insert {es : Entries α} {key : String} (h : get? es key = none) (v : α) :
    (es.insert key v).erase key = es := by
  have hk := get?_eq_none_iff.mp h
  rw [insert, if_neg (by simp [hk]), erase, List.filter_append, List.filter_eq_self.mpr]
  · simp
  · intro e he
    have hne := List.any_eq_false.mp hk e he
    simpa using hne

/-- Entries that are written after others have their values, and leave those of other names. -/
theorem get?_foldl_insert {fs : Entries α} (hn : fs.keys.Nodup) (es : Entries α) (key : String) :
    get? (fs.foldl (fun acc e => acc.insert e.1 e.2) es) key =
      (get? fs key).or (get? es key) := by
  induction fs generalizing es with
  | nil => rfl
  | cons f fs ih =>
    obtain ⟨hf, hfs⟩ := List.nodup_cons.mp hn
    rw [List.foldl_cons, ih hfs, get?_insert, get?_cons]
    by_cases hk : key = f.1
    · subst hk
      have hnone : get? fs f.1 = none := get?_eq_none_iff.mpr (Bool.eq_false_iff.mpr fun hhas => hf (has_iff.mp hhas))
      simp [hnone]
    · rw [if_neg hk, if_neg (by simpa using Ne.symm hk)]

theorem keys_replace (es : Entries α) (key : String) (v : α) : (es.replace key v).keys = es.keys := by
  unfold keys replace
  rw [List.map_map]
  apply List.map_congr_left
  intro e _
  dsimp only [Function.comp]
  split <;> rfl

theorem keys_insert_of_has {es : Entries α} {key : String} (h : es.has key = true) (v : α) :
    (es.insert key v).keys = es.keys := by
  rw [insert, if_pos h, keys_replace]

theorem insert_of_notMem {es : Entries α} {key : String} (h : key ∉ es.keys) (v : α) :
    es.insert key v = es ++ [(key, v)] := if_neg fun hhas => h (has_iff.mp hhas)

theorem mem_keys_insert {es : Entries α} {key name : String} {v : α} (h : name ∈ (es.insert key v).keys) :
    name = key ∨ name ∈ es.keys := by
  unfold insert at h
  split at h
  · rw [keys_replace] at h
    exact .inr h
  · rw [keys, List.map_append, List.mem_append] at h
    exact h.symm.imp_left fun h => List.mem_singleton.mp h

theorem nodup_insert {es : Entries α} (h : es.keys.Nodup) (key : String) (v : α) :
    (es.insert key v).keys.Nodup := by
  by_cases hk : key ∈ es.keys
  · rw [keys_insert_of_has (has_iff.mpr hk)]
    exact h
  · rw [insert_of_notMem hk, keys, List.map_append, List.nodup_append]
    refine ⟨h, by simp, ?_⟩
    rintro _ ha _ hb rfl
    obtain rfl := List.mem_singleton.mp hb
    exact hk ha

theorem foldl_insert_eq_append {es fs : Entries α} (hn : (es.keys ++ fs.keys).Nodup) :
    fs.foldl (fun (acc : Entries α) e => acc.insert e.1 e.2) es = es ++ fs := by
  induction fs generalizing es with
  | nil => exact (List.append_nil es).symm
  | cons f fs ih =>
    have hnew : f.1 ∉ es.keys := fun hf => (List.nodup_append.mp hn).2.2 f.1 hf f.1 List.mem_cons_self rfl
    rw [List.foldl_cons, insert_of_notMem hnew, ih]
    · rw [List.append_assoc, List.singleton_append]
    · simpa [keys] using hn

/-! What is written among other entries. -/

theorem insert_cons_of_ne {e : String × α} {key : String} (h : e.1 ≠ key) (es : Entries α) (v : α) :
    insert (e :: es) key v = e :: es.insert key v := by
  have hkey : (e.1 == key) = false := beq_eq_false_iff_ne.mpr h
  have hhas : has (e :: es) key = es.has key := by rw [has, List.any_cons, hkey, Bool.false_or, has]
  have hreplace : replace (e :: es) key v = e :: es.replace key v := by
    rw [replace, List.map_cons, hkey, if_neg Bool.false_ne_true, replace]
  unfold insert
  rw [hhas, hreplace]
  split <;> rfl

theorem head?_insert {es : Entries α} {e : String × α} {key : String} (h : es.head? = some e) (hk : e.1 ≠ key) (v : α) :
    (es.insert key v).head? = some e := by
  cases es with
  | nil => cases h
  | cons f es =>
    cases h
    rw [insert_cons_of_ne hk, List.head?_cons]

theorem insert_cons_self {e : String × α} {es : Entries α} (h : e.1 ∉ es.keys) (v : α) :
    insert (e :: es) e.1 v = (e.1, v) :: es := by
  have hrest : es.replace e.1 v = es := replace_of_not_has (Bool.eq_false_iff.mpr fun hhas => h (has_iff.mp hhas)) v
  rw [insert, if_pos (has_iff.mpr List.mem_cons_self), replace, List.map_cons, if_pos (beq_self_eq_true e.1), ← replace,
    hrest]

/-- To write a name does not touch the entries of a kind that it is not of. -/
theorem filter_insert_of_not {p : String → Bool} {key : String} (h : p key = false) (es : Entries α) (v : α) :
    (es.insert key v).filter (fun e => p e.1) = es.filter fun e => p e.1 := by
  by_cases hk : key ∈ es.keys
  · rw [insert, if_pos (has_iff.mpr hk)]
    clear hk
    induction es with
    | nil => rfl
    | cons e es ih =>
      rw [replace, List.map_cons, List.filter_cons, List.filter_cons, ← replace, ih]
      by_cases hkey : e.1 = key
      · simp [hkey, h]
      · simp [hkey]
  · simp [insert_of_notMem hk, h]

/-- A name that alone is of some kind is alone of it after it is written. -/
theorem filter_insert_of_only {p : String → Bool} {key : String} {es : Entries α} (hn : es.keys.Nodup)
    (hp : p key = true) (honly : ∀ name ∈ es.keys, p name = true → name = key) (v : α) :
    (es.insert key v).filter (fun e => p e.1) = [(key, v)] := by
  induction es with
  | nil => simp [insert, has, hp]
  | cons e es ih =>
    obtain ⟨hfirst, hrest⟩ := List.forall_mem_cons.mp honly
    obtain ⟨hnot, hn⟩ := List.nodup_cons.mp hn
    by_cases hkey : e.1 = key
    · subst hkey
      rw [insert_cons_self hnot, List.filter_cons, if_pos hp, List.filter_eq_nil_iff.mpr]
      exact fun f hf hpf => hnot (hrest f.1 (List.mem_map_of_mem hf) hpf ▸ List.mem_map_of_mem hf)
    · rw [insert_cons_of_ne hkey, List.filter_cons, if_neg fun hpe => hkey (hfirst hpe), ih hn hrest]

theorem getNamed?_of_get? {es : Entries α} {name : String} {v : α} (h : es.get? name = some v) :
    es.getNamed? name = some v := by
  unfold getNamed?
  rw [h]

theorem get?_of_mem {es : Entries α} (hn : es.keys.Nodup) {name : String} {v : α}
    (h : (name, v) ∈ es) : es.get? name = some v := by
  induction es with
  | nil => cases h
  | cons e es ih =>
    obtain ⟨he, hes⟩ := List.nodup_cons.mp hn
    rw [get?_cons]
    rcases List.mem_cons.mp h with rfl | h
    · simp
    · have hne : e.1 ≠ name := by
        rintro rfl
        exact he (List.mem_map.mpr ⟨_, h, rfl⟩)
      rw [if_neg (by simpa using hne)]
      exact ih hes h

theorem mem_of_get? {es : Entries α} {name : String} {v : α} (h : es.get? name = some v) :
    (name, v) ∈ es := by
  obtain ⟨e, he, rfl⟩ := Option.map_eq_some_iff.mp h
  have hn := List.find?_some he
  rw [← beq_iff_eq.mp hn]
  exact List.mem_of_find?_eq_some he

theorem mem_keys_of_get? {es : Entries α} {name : String} {v : α} (h : es.get? name = some v) :
    name ∈ es.keys :=
  List.mem_map.mpr ⟨(name, v), mem_of_get? h, rfl⟩

theorem exists_of_getNamed? {es : Entries α} {name : String} {v : α} (h : es.getNamed? name = some v) :
    ∃ key, (key, v) ∈ es ∧ Name.fold key = Name.fold name := by
  unfold getNamed? at h
  split at h
  · rename_i hg
    cases h
    exact ⟨name, mem_of_get? hg, rfl⟩
  · obtain ⟨e, he, rfl⟩ := Option.map_eq_some_iff.mp h
    have hn := List.find?_some he
    exact ⟨e.1, List.mem_of_find?_eq_some he, Name.same_iff.mp hn⟩

theorem getNamed?_eq_none {es : Entries α} {name : String} (h : ∀ key ∈ es.keys, Name.same key name = false) :
    es.getNamed? name = none := by
  cases hg : es.getNamed? name with
  | none => rfl
  | some v =>
    obtain ⟨key, hm, hk⟩ := exists_of_getNamed? hg
    have hno := h key (List.mem_map.mpr ⟨_, hm, rfl⟩)
    rw [Name.same_iff.mpr hk] at hno
    cases hno

theorem exists_getNamed?_of_mem {es : Entries α} {key name : String} {v : α} (h : (key, v) ∈ es)
    (hk : Name.fold key = Name.fold name) : ∃ w, es.getNamed? name = some w := by
  unfold getNamed?
  cases es.get? name with
  | some w => exact ⟨w, rfl⟩
  | none =>
    have hf : (es.find? fun e => Name.same e.1 name).isSome :=
      List.find?_isSome.mpr ⟨(key, v), h, Name.same_iff.mpr hk⟩
    obtain ⟨e, he⟩ := Option.isSome_iff_exists.mp hf
    exact ⟨e.2, congrArg (Option.map Prod.snd) he⟩

/-- To write another name changes nothing of what is found. -/
theorem getNamed?_insert_of_ne {key name : String} (h : Name.same key name = false) (es : Entries α) (v : α) :
    (es.insert key v).getNamed? name = es.getNamed? name := by
  have hne : name ≠ key := by
    rintro rfl
    rw [Name.same_iff.mpr rfl] at h
    cases h
  have hreplace (es : Entries α) : ((es.replace key v).find? fun e => Name.same e.1 name).map Prod.snd =
      (es.find? fun e => Name.same e.1 name).map Prod.snd := by
    induction es with
    | nil => rfl
    | cons e es ih =>
      by_cases he : e.1 = key
      · simpa [replace, he, h] using ih
      · cases hn : Name.same e.1 name with
        | true => simp [replace, he, hn]
        | false => simpa [replace, he, hn] using ih
  have hfind : ((es.insert key v).find? fun e => Name.same e.1 name).map Prod.snd =
      (es.find? fun e => Name.same e.1 name).map Prod.snd := by
    unfold insert
    split
    · exact hreplace es
    · simp [List.find?_append, h]
  unfold getNamed?
  rw [get?_insert, if_neg hne, hfind]

theorem spelling?_eq_keys (es : Entries α) (name : String) :
    es.spelling? name = if name ∈ es.keys then some name else es.keys.find? fun key => Name.same key name := by
  have hfind : (es.find? fun e => Name.same e.1 name).map Prod.fst =
      es.keys.find? fun key => Name.same key name := by
    rw [keys, List.find?_map]
    rfl
  unfold spelling?
  rw [hfind]
  exact if_congr has_iff rfl rfl

theorem spelling?_congr {es : Entries α} {fs : Entries β} (h : es.keys = fs.keys) (name : String) :
    es.spelling? name = fs.spelling? name := by
  rw [spelling?_eq_keys, spelling?_eq_keys, h]

theorem spelling?_eq_some {es : Entries α} {name key : String} (h : es.spelling? name = some key) :
    key ∈ es.keys ∧ Name.fold key = Name.fold name := by
  rw [spelling?_eq_keys] at h
  split at h
  · rename_i hm
    cases h
    exact ⟨hm, rfl⟩
  · exact ⟨List.mem_of_find?_eq_some h, Name.same_iff.mp (by simpa using List.find?_some h)⟩

theorem spelling?_of_get? {es : Entries α} {name : String} {v : α} (h : es.get? name = some v) :
    es.spelling? name = some name := by
  unfold spelling?
  cases hn : es.has name with
  | true => rfl
  | false =>
    rw [get?_eq_none_iff.mpr hn] at h
    cases h

theorem getNamed?_of_spelling? {es : Entries α} {name key : String} (h : es.spelling? name = some key) :
    es.getNamed? name = es.get? key := by
  unfold spelling? at h
  unfold getNamed?
  cases hg : es.get? name with
  | some v =>
    have hhas : es.has name = true := by
      rw [← Bool.not_eq_false, ← get?_eq_none_iff, hg]
      nofun
    rw [hhas] at h
    cases h
    exact hg.symm
  | none =>
    rw [get?_eq_none_iff.mp hg] at h
    obtain ⟨e, he, rfl⟩ := Option.map_eq_some_iff.mp h
    obtain ⟨hsame, before, after, rfl, hbefore⟩ := List.find?_eq_some_iff_append.mp he
    -- no entry before has the key, since it would be a spelling of the name
    have hfirst : ((before ++ e :: after).find? fun f => f.1 == e.1) = some e := by
      refine List.find?_eq_some_iff_append.mpr ⟨beq_self_eq_true _, before, after, rfl, fun f hf => ?_⟩
      by_contra hkey
      have hkey : f.1 = e.1 := by simpa using hkey
      have hother := hbefore f hf
      rw [hkey, hsame] at hother
      cases hother
    unfold get?
    rw [he, hfirst]

theorem getNamed?_isSome (es : Entries α) (name : String) : (es.getNamed? name).isSome = (es.spelling? name).isSome := by
  unfold getNamed? spelling?
  cases hg : es.get? name with
  | none => simp [get?_eq_none_iff.mp hg]
  | some v =>
    have hhas : es.has name = true := has_iff.mpr (mem_keys_of_get? hg)
    simp [hhas]

theorem same_eq_false_of_getNamed?_eq_none {es : Entries α} {name : String} (h : es.getNamed? name = none) :
    ∀ e ∈ es, Name.same e.1 name = false := by
  intro e he
  by_contra hsame
  obtain ⟨w, hw⟩ := exists_getNamed?_of_mem he (Name.same_iff.mp (by simpa using hsame))
  rw [h] at hw
  cases hw

theorem insert_of_getNamed?_eq_none {es : Entries α} {key : String} (h : es.getNamed? key = none) (v : α) :
    es.insert key v = es ++ [(key, v)] := by
  refine insert_of_notMem (fun hmem => ?_) v
  obtain ⟨e, he, rfl⟩ := List.mem_map.mp hmem
  have hother := same_eq_false_of_getNamed?_eq_none h e he
  rw [Name.same_self] at hother
  cases hother

theorem getElem?_idxOf_keys {es : Entries α} {key : String} (h : key ∈ es.keys) :
    ∃ v, es[es.keys.idxOf key]? = some (key, v) := by
  have hk := List.getElem?_idxOf h
  unfold keys at hk ⊢
  rw [List.getElem?_map, Option.map_eq_some_iff] at hk
  obtain ⟨⟨key', v⟩, he, rfl⟩ := hk
  exact ⟨v, he⟩

theorem get?_of_getElem?_idxOf {es : Entries α} {key : String} {v : α} (h : es[es.keys.idxOf key]? = some (key, v)) :
    es.get? key = some v := by
  induction es with
  | nil => cases h
  | cons e es ih =>
    rw [get?_cons]
    by_cases he : e.1 = key
    · have hidx : (keys (e :: es)).idxOf key = 0 := by simp [keys, he]
      rw [hidx] at h
      cases h
      simp
    · have hidx : (keys (e :: es)).idxOf key = (keys es).idxOf key + 1 := List.idxOf_cons_ne _ he
      rw [hidx] at h
      simpa [he] using ih h

/-! Names that are told apart by more than their case. -/

def Apart (es : Entries α) : Prop := (es.keys.map Name.fold).Nodup

instance (es : Entries α) : Decidable es.Apart := inferInstanceAs (Decidable (es.keys.map Name.fold).Nodup)

theorem Apart.nil : Apart ([] : Entries α) := List.nodup_nil

theorem Apart.eq_of_fold {es : Entries α} (h : es.Apart) {e f : String × α} (he : e ∈ es) (hf : f ∈ es)
    (hk : Name.fold e.1 = Name.fold f.1) : e = f := by
  unfold Apart keys at h
  rw [List.map_map] at h
  exact List.inj_on_of_nodup_map h he hf hk

/-- Where names are told apart by more than their case, a name is looked up by it alone. -/
theorem Apart.getNamed?_eq {es : Entries α} (h : es.Apart) (name : String) :
    es.getNamed? name = (es.find? fun e => Name.same e.1 name).map Prod.snd := by
  unfold getNamed?
  cases hg : es.get? name with
  | none => rfl
  | some v =>
    have hmem : (name, v) ∈ es := mem_of_get? hg
    have hsome : (es.find? fun e => Name.same e.1 name).isSome :=
      List.find?_isSome.mpr ⟨(name, v), hmem, Name.same_self name⟩
    obtain ⟨e, he⟩ := Option.isSome_iff_exists.mp hsome
    have hfold := Name.same_iff.mp (by simpa using List.find?_some he)
    rw [he, h.eq_of_fold (List.mem_of_find?_eq_some he) hmem hfold]
    rfl

theorem Apart.getNamed?_of_mem {es : Entries α} (h : es.Apart) {e : String × α} (he : e ∈ es) {name : String}
    (hk : Name.fold e.1 = Name.fold name) : es.getNamed? name = some e.2 := by
  obtain ⟨w, hw⟩ := exists_getNamed?_of_mem he hk
  obtain ⟨key, hm, hkey⟩ := exists_of_getNamed? hw
  rw [hw, h.eq_of_fold he hm (hk.trans hkey.symm)]

theorem Apart.of_cons {es : Entries α} {e : String × α} (h : Apart (e :: es)) :
    (∀ f ∈ es, Name.same f.1 e.1 = false) ∧ es.Apart := by
  obtain ⟨hnew, hrest⟩ := List.nodup_cons.mp h
  refine ⟨fun f hf => ?_, hrest⟩
  rw [Bool.eq_false_iff, ne_eq, Name.same_iff]
  exact fun hfold => hnew (hfold ▸ List.mem_map_of_mem (List.mem_map_of_mem hf))

theorem Apart.concat {es : Entries α} {key : String} (h : es.Apart) (hnew : es.getNamed? key = none) (v : α) :
    Apart (es ++ [(key, v)]) := by
  unfold Apart keys at h ⊢
  rw [List.map_append, List.map_append, List.nodup_append']
  refine ⟨h, by simp, List.disjoint_right.mpr fun name hname hmem => ?_⟩
  obtain rfl : name = Name.fold key := by simpa using hname
  obtain ⟨name, hname, hfold⟩ := List.mem_map.mp hmem
  obtain ⟨e, he, rfl⟩ := List.mem_map.mp hname
  have hother := same_eq_false_of_getNamed?_eq_none hnew e he
  rw [Name.same_iff.mpr hfold] at hother
  cases hother

theorem Apart.spelling?_eq_some_iff {es : Entries α} (h : es.Apart) {e : String × α} (he : e ∈ es)
    (name : String) : es.spelling? name = some e.1 ↔ Name.fold e.1 = Name.fold name := by
  refine ⟨fun hs => (spelling?_eq_some hs).2, fun hfold => ?_⟩
  have hkeys {key : String} (hk : key ∈ es.keys) (hf : Name.fold key = Name.fold name) : key = e.1 := by
    obtain ⟨f, hf', rfl⟩ := List.mem_map.mp hk
    rw [h.eq_of_fold hf' he (hf.trans hfold.symm)]
  rw [spelling?_eq_keys]
  split
  · rename_i hm
    rw [hkeys hm rfl]
  · have hsome : (es.keys.find? fun key => Name.same key name).isSome :=
      List.find?_isSome.mpr ⟨e.1, List.mem_map_of_mem he, Name.same_iff.mpr hfold⟩
    obtain ⟨key, hkey⟩ := Option.isSome_iff_exists.mp hsome
    rw [hkey, hkeys (List.mem_of_find?_eq_some hkey)
      (Name.same_iff.mp (by simpa using List.find?_some hkey))]

end Entries
end ResourceTemplate

/-! ### Positions in a tree -/

namespace ResourceTemplate.Positions

theorem pairwise_branch {i : Nat} {first later : List (List Nat)} (hfirst : first.Pairwise (· < ·))
    (hlater : later.Pairwise (· < ·)) (h : ∀ p ∈ later, ∃ j rest, p = j :: rest ∧ i < j) :
    (first.map (i :: ·) ++ later).Pairwise (· < ·) := by
  rw [List.pairwise_append]
  refine ⟨hfirst.map _ fun p q hpq => List.cons_lt_cons_iff.mpr (Or.inr ⟨rfl, hpq⟩), hlater, ?_⟩
  intro p hp q hq
  obtain ⟨p, -, rfl⟩ := List.mem_map.mp hp
  obtain ⟨j, rest, rfl, hij⟩ := h q hq
  exact List.cons_lt_cons_iff.mpr (Or.inl hij)

theorem pairwise_below {below : List (List Nat)} (h : below.Pairwise (· < ·)) (hne : [] ∉ below) :
    ([] :: below).Pairwise (· < ·) := by
  refine List.pairwise_cons.mpr ⟨fun p hp => ?_, h⟩
  cases p with
  | nil => exact absurd hp hne
  | cons i rest => exact List.nil_lt_cons i rest

end ResourceTemplate.Positions
