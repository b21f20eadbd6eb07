import ResourceTemplate.Proofs.Redaction
import ResourceTemplate.Resource

namespace ResourceTemplate

namespace Entries

variable {α : Type}

/-- The key of an entry after a name is written: the name, or a key that was there. -/
theorem key_of_mem_insert {es : Entries α} {key : String} {v : α} {e : String × α}
    (h : e ∈ es.insert key v) : e.1 = key ∨ ∃ e' ∈ es, e'.1 = e.1 := by
  unfold insert at h
  split at h
  · obtain ⟨e', he', rfl⟩ := List.mem_map.mp h
    refine .inr ⟨e', he', ?_⟩
    split <;> rfl
  · rcases List.mem_append.mp h with h | h
    · exact .inr ⟨e, h, rfl⟩
    · rw [List.mem_singleton.mp h]
      exact .inl rfl

end Entries

def Lacks (name : String) (es : Entries Json) : Prop := ∀ e ∈ es, Name.same e.1 name = false

namespace Lacks

variable {name : String} {es : Entries Json}

theorem insert (h : Lacks name es) {key : String} (hk : Name.same key name = false) (v : Json) :
    Lacks name (es.insert key v) := by
  intro e he
  rcases Entries.key_of_mem_insert he with he | ⟨e', he', hk'⟩
  · rw [he, hk]
  · rw [← hk', h e' he']

theorem foldl_insert (h : Lacks name es) {fs : List (String × Json)} (hf : Lacks name fs) :
    Lacks name (fs.foldl (fun (acc : Entries Json) e => acc.insert e.1 e.2) es) := by
  induction fs generalizing es with
  | nil => exact h
  | cons f fs ih =>
    have hf' := List.forall_mem_cons.mp hf
    exact ih (h.insert hf'.1 f.2) hf'.2

theorem trimNulls (h : Lacks name es) : Lacks name (trimNulls es) := by
  induction es with
  | nil => exact h
  | cons e es ih =>
    obtain ⟨k, v⟩ := e
    have hes := List.forall_mem_cons.mp h
    unfold ResourceTemplate.trimNulls
    split
    · exact ih hes.2
    · exact List.forall_mem_cons.mpr ⟨hes.1, ih hes.2⟩

/-- A name that is there in no spelling is written after the others. -/
theorem insert_self (h : Lacks name es) (v : Json) : es.insert name v = es ++ [(name, v)] := by
  refine Entries.insert_of_notMem (fun hmem => ?_) v
  obtain ⟨e, he, hkey⟩ := List.mem_map.mp hmem
  have hs := h e he
  rw [hkey, Name.same_self] at hs
  cases hs

theorem filter_eq (h : Lacks name es) : es.filter (fun e => Name.same e.1 name) = [] := by
  rw [List.filter_eq_nil_iff]
  intro e he
  simp [h e he]

end Lacks

def Spelled (name : String) (es : Entries Json) : Prop := ∀ key ∈ es.keys, Name.same key name = true → key = name

namespace Spelled

variable {name : String} {es : Entries Json}

theorem insert (h : Spelled name es) {key : String} (hk : Name.same key name = false ∨ key = name) (v : Json) :
    Spelled name (es.insert key v) := by
  intro other ho hs
  rcases Entries.mem_keys_insert ho with rfl | ho
  · rcases hk with hk | hk
    · rw [hk] at hs
      cases hs
    · exact hk
  · exact h other ho hs

/-- A name that stands under no other spelling alone is spelled so after it is written. -/
theorem filter_insert (h : Spelled name es) (hn : es.keys.Nodup) (v : Json) :
    (es.insert name v).filter (fun e => Name.same e.1 name) = [(name, v)] :=
  Entries.filter_insert_of_only (p := (Name.same · name)) hn (Name.same_self name) h v

end Spelled

theorem trimNulls_append (es fs : List (String × Json)) :
    trimNulls (es ++ fs) = trimNulls es ++ trimNulls fs := by
  induction es with
  | nil => rfl
  | cons e es ih =>
    obtain ⟨k, v⟩ := e
    rw [List.cons_append, trimNulls, trimNulls, ih]
    split <;> rfl

theorem trimItems_strings (ss : List String) : trimItems (ss.map Json.str) = ss.map Json.str := by
  induction ss with
  | nil => rfl
  | cons s ss ih =>
    simp only [List.map_cons, trimItems, trimValue, ih]

/-- The value of a name stays, but for what is null in it. -/
theorem get?_trimNulls {es : Entries Json} {key : String} {v : Json} (h : es.get? key = some v)
    (hv : v.isNull = false) : Entries.get? (trimNulls es) key = some (trimValue v) := by
  induction es with
  | nil => cases h
  | cons e es ih =>
    obtain ⟨k, u⟩ := e
    rw [Entries.get?_cons] at h
    unfold trimNulls
    by_cases hk : k = key
    · subst hk
      simp only [beq_self_eq_true, if_true, Option.some.injEq] at h
      subst h
      rw [if_neg (by simp [hv]), Entries.get?_cons]
      simp
    · rw [if_neg (by simpa using hk)] at h
      split
      · exact ih h
      · rw [Entries.get?_cons, if_neg (by simpa using hk)]
        exact ih h

theorem getElem?_trimItems (items : List Json) (i : Nat) :
    (trimItems items)[i]? = items[i]?.map trimValue := by
  induction items generalizing i with
  | nil => rfl
  | cons v items ih => cases i <;> simp [trimItems, ih]

mutual

def Json.hasNullMember : Json → Bool
  | .obj es => membersHaveNull es
  | .arr items => itemsHaveNullMember items
  | _ => false

def membersHaveNull : List (String × Json) → Bool
  | [] => false
  | (_, v) :: rest => v.isNull || v.hasNullMember || membersHaveNull rest

def itemsHaveNullMember : List Json → Bool
  | [] => false
  | v :: vs => v.hasNullMember || itemsHaveNullMember vs

end

mutual

theorem trimValue_of_hasNullMember : (v : Json) → v.hasNullMember = false → trimValue v = v
  | .obj es, h => congrArg Json.obj (trimNulls_of_membersHaveNull es h)
  | .arr items, h => congrArg Json.arr (trimItems_of_itemsHaveNullMember items h)
  | .null, _ => rfl
  | .bool _, _ => rfl
  | .num _, _ => rfl
  | .str _, _ => rfl

theorem trimNulls_of_membersHaveNull : (es : List (String × Json)) → membersHaveNull es = false →
    trimNulls es = es
  | [], _ => rfl
  | (k, v) :: rest, h => by
    simp only [membersHaveNull, Bool.or_eq_false_iff] at h
    obtain ⟨⟨hn, hv⟩, hr⟩ := h
    rw [trimNulls, if_neg (by simp [hn]), trimValue_of_hasNullMember v hv,
      trimNulls_of_membersHaveNull rest hr]

theorem trimItems_of_itemsHaveNullMember : (items : List Json) →
    itemsHaveNullMember items = false → trimItems items = items
  | [], _ => rfl
  | v :: vs, h => by
    simp only [itemsHaveNullMember, Bool.or_eq_false_iff] at h
    rw [trimItems, trimValue_of_hasNullMember v h.1, trimItems_of_itemsHaveNullMember vs h.2]

end

@[simp] theorem isNull_trimValue (v : Json) : (trimValue v).isNull = v.isNull := by
  cases v <;> rfl

mutual

theorem hasNullMember_trimValue : (v : Json) → (trimValue v).hasNullMember = false
  | .obj es => membersHaveNull_trimNulls es
  | .arr items => itemsHaveNullMember_trimItems items
  | .null => rfl
  | .bool _ => rfl
  | .num _ => rfl
  | .str _ => rfl

theorem membersHaveNull_trimNulls : (es : List (String × Json)) →
    membersHaveNull (trimNulls es) = false
  | [] => rfl
  | (k, v) :: rest => by
    unfold trimNulls
    split
    · exact membersHaveNull_trimNulls rest
    · rename_i hn
      simp [membersHaveNull, hn, hasNullMember_trimValue v, membersHaveNull_trimNulls rest]

theorem itemsHaveNullMember_trimItems : (items : List Json) →
    itemsHaveNullMember (trimItems items) = false
  | [] => rfl
  | v :: vs => by
    simp [trimItems, itemsHaveNullMember, hasNullMember_trimValue v,
      itemsHaveNullMember_trimItems vs]

end

theorem mem_trimNulls {es : Entries Json} {key : String} {w : Json} :
    (key, w) ∈ trimNulls es ↔ ∃ v, (key, v) ∈ es ∧ v.isNull = false ∧ w = trimValue v := by
  induction es with
  | nil => simp [trimNulls]
  | cons e es ih =>
    obtain ⟨k, v⟩ := e
    unfold trimNulls
    cases hv : v.isNull with
    | true =>
      rw [if_pos rfl, ih]
      refine ⟨fun ⟨u, hu, h⟩ => ⟨u, List.mem_cons_of_mem _ hu, h⟩, fun ⟨u, hu, hnot, h⟩ => ⟨u, ?_, hnot, h⟩⟩
      rcases List.mem_cons.mp hu with he | hu
      · cases he
        rw [hv] at hnot
        cases hnot
      · exact hu
    | false =>
      rw [if_neg Bool.false_ne_true, List.mem_cons, ih]
      constructor
      · rintro (he | ⟨u, hu, h⟩)
        · cases he
          exact ⟨v, List.mem_cons_self, hv, rfl⟩
        · exact ⟨u, List.mem_cons_of_mem _ hu, h⟩
      · rintro ⟨u, hu, hnot, rfl⟩
        rcases List.mem_cons.mp hu with he | hu
        · cases he
          exact .inl rfl
        · exact .inr ⟨u, hu, hnot, rfl⟩

theorem filter_trimNulls (p : String → Bool) (es : Entries Json) :
    (trimNulls es).filter (fun e => p e.1) = trimNulls (es.filter fun e => p e.1) := by
  induction es with
  | nil => rfl
  | cons e es ih =>
    obtain ⟨k, v⟩ := e
    rw [List.filter_cons]
    cases hp : p k <;> cases hv : v.isNull <;> simp [trimNulls, hv, hp, ih]

theorem head?_trimNulls {es : Entries Json} {key s : String} (h : es.head? = some (key, .str s)) :
    (trimNulls es).head? = some (key, .str s) := by
  cases es with
  | nil => cases h
  | cons e es =>
    cases h
    rfl

theorem trimItems_eq_map (items : List Json) : trimItems items = items.map trimValue := by
  induction items with
  | nil => rfl
  | cons v items ih => rw [trimItems, List.map_cons, ih]

/-- Whether a value stands at a place of another, as one of the members of a name if there are several. -/
inductive Json.Contains (w : Json) : PropertyPath → Json → Prop
  | here : Contains w [] w
  | member {name : String} {rest : PropertyPath} {es : Entries Json} {v : Json} (hv : (name, v) ∈ es)
      (h : Contains w rest v) : Contains w (.key name :: rest) (.obj es)
  | item {i : Nat} {rest : PropertyPath} {items : List Json} {v : Json} (hv : items[i]? = some v)
      (h : Contains w rest v) : Contains w (.index i :: rest) (.arr items)

theorem Json.Contains.isNull_of_arr {xs : List Json} {place : PropertyPath} {v : Json}
    (h : (Json.arr xs).Contains place v) : v.isNull = false := by
  cases h <;> rfl

/-- Arrays keep their places and their items, each of them trimmed, and so their lengths. -/
theorem contains_trimValue_iff {place : PropertyPath} {v : Json} {ys : List Json} :
    (Json.arr ys).Contains place (trimValue v) ↔ ∃ xs, (Json.arr xs).Contains place v ∧ ys = xs.map trimValue := by
  constructor
  · intro h
    generalize hw : trimValue v = w at h
    induction h generalizing v with
    | here =>
      cases v with
      | arr xs =>
        refine ⟨xs, .here, ?_⟩
        rw [← trimItems_eq_map]
        exact (Json.arr.inj hw).symm
      | _ => cases hw
    | member hv h ih =>
      cases v with
      | obj es =>
        cases hw
        obtain ⟨u, hu, -, hw⟩ := mem_trimNulls.mp hv
        obtain ⟨xs, hxs, hys⟩ := ih hw.symm
        exact ⟨xs, .member hu hxs, hys⟩
      | _ => cases hw
    | item hv h ih =>
      cases v with
      | arr items =>
        cases hw
        rw [getElem?_trimItems] at hv
        obtain ⟨u, hu, hw⟩ := Option.map_eq_some_iff.mp hv
        obtain ⟨xs, hxs, hys⟩ := ih hw
        exact ⟨xs, .item hu hxs, hys⟩
      | _ => cases hw
  · rintro ⟨xs, h, rfl⟩
    induction h with
    | here =>
      rw [trimValue, trimItems_eq_map]
      exact .here
    | member hv h ih => exact .member (mem_trimNulls.mpr ⟨_, hv, h.isNull_of_arr, rfl⟩) ih
    | item hv h ih =>
      refine .item ?_ ih
      rw [getElem?_trimItems, hv]
      rfl

/-- Only the members of its name matter for what stands under a key. -/
theorem Json.contains_filter_iff {p : String → Bool} {key : String} (hp : p key = true) {es : Entries Json} {w : Json}
    {place : PropertyPath} : w.Contains (.key key :: place) (.obj (es.filter fun e => p e.1)) ↔
      w.Contains (.key key :: place) (.obj es) := by
  constructor
  · intro h
    cases h with
    | member hv h => exact .member (List.mem_filter.mp hv).1 h
  · intro h
    cases h with
    | member hv h => exact .member (List.mem_filter.mpr ⟨hv, hp⟩) h

theorem Json.Hidden.isNull {place : PropertyPath} {v : Json} (h : v.Hidden place) :
    v.isNull = false := by
  cases h <;> rfl

/-- What is hidden stays hidden when null members are left out. -/
theorem trimValue_hidden {place : PropertyPath} {v : Json} (h : v.Hidden place) :
    (trimValue v).Hidden place := by
  induction h with
  | here place => exact .here place
  | member hv h ih => exact .member (get?_trimNulls hv h.isNull) ih
  | item hv h ih =>
    refine .item ?_ ih
    rw [getElem?_trimItems, hv]
    rfl

namespace ResourceValue

/-- A key that is the expansion's to set has no say in the value of any other. -/
theorem get?_makeBody {identity : ResourceIdentity} {evaluated : Entries Json}
    {dependsOn : List String} {key : String} {v : Json} (hn : evaluated.keys.Nodup)
    (h : evaluated.get? key = some v) (hv : v.isNull = false) (hr : isReserved key = false)
    (hname : Name.same key "name" = false) (htype : Name.same key "type" = false) :
    Entries.get? (makeBody identity evaluated dependsOn) key = some (trimValue v) := by
  simp only [isReserved, Bool.or_eq_false_iff] at hr
  have ne {name : String} (hs : Name.same key name = false) : key ≠ name := by
    rintro rfl
    rw [Name.same_self] at hs
    cases hs
  have hown : Entries.get? ((evaluated.filter fun e => !isReserved e.1).foldl
      (fun (acc : Entries Json) e => acc.insert e.1 e.2) [("id", .str identity.id)]) key =
        some v := by
    have hsub := (List.filter_sublist (p := fun e => !isReserved e.1) (l := evaluated)).map Prod.fst
    rw [Entries.get?_foldl_insert (hn.sublist hsub),
      Entries.get?_filter evaluated (p := fun k => !isReserved k) (by simp [isReserved, hr]), h]
    rfl
  unfold makeBody
  apply get?_trimNulls _ hv
  split
  · rw [Entries.get?_insert, if_neg (ne hr.1.2), Entries.get?_insert, if_neg (ne htype),
      Entries.get?_insert, if_neg (ne hname), hown]
  · rw [Entries.get?_insert, if_neg (ne hr.2), Entries.get?_insert, if_neg (ne hr.1.2),
      Entries.get?_insert, if_neg (ne htype), Entries.get?_insert, if_neg (ne hname), hown]

/-- What is hidden in an evaluated declaration is hidden in the body, under a key that is not the
expansion's to set. -/
theorem makeBody_hidden {identity : ResourceIdentity} {evaluated : Entries Json}
    {dependsOn : List String} {key : String} {place : PropertyPath} (hn : evaluated.keys.Nodup)
    (h : (Json.obj evaluated).Hidden (.key key :: place)) (hr : isReserved key = false)
    (hname : Name.same key "name" = false) (htype : Name.same key "type" = false) :
    (Json.obj (makeBody identity evaluated dependsOn)).Hidden (.key key :: place) := by
  cases h with
  | member hv h =>
    exact .member (get?_makeBody hn hv h.isNull hr hname htype) (trimValue_hidden h)

/-- What a body holds under the spellings of the key of dependencies: the ids in their order under one
key, and nothing if there are none. -/
theorem makeBody_dependsOn (identity : ResourceIdentity) (evaluated : Entries Json)
    (dependsOn : List String) :
    (makeBody identity evaluated dependsOn).filter (fun e => Name.same e.1 "dependsOn") =
      if dependsOn = [] then [] else [("dependsOn", Json.strings dependsOn)] := by
  have hid : Name.same "id" "dependsOn" = false := by decide
  have hname : Name.same "name" "dependsOn" = false := by decide
  have htype : Name.same "type" "dependsOn" = false := by decide
  have hscope : Name.same "scope" "dependsOn" = false := by decide
  have hown : Lacks "dependsOn" (evaluated.filter fun e => !isReserved e.1) := by
    intro e he
    have hr := (List.mem_filter.mp he).2
    unfold isReserved at hr
    simpa using (by simpa using hr : _ ∧ _).2
  have hfirst : Lacks "dependsOn" [("id", .str identity.id)] :=
    List.forall_mem_singleton.mpr hid
  -- the members before the last come from reserved keys and from what is left of the evaluated body
  have hnamed := (((hfirst.foldl_insert hown).insert hname (.str identity.name)).insert htype
    (.str identity.type)).insert hscope (.str identity.scope)
  unfold makeBody
  dsimp only
  by_cases hd : dependsOn = []
  · rw [if_pos hd, if_pos (List.isEmpty_iff.mpr hd)]
    exact hnamed.trimNulls.filter_eq
  · rw [if_neg hd, if_neg (by simpa using hd), hnamed.insert_self, trimNulls_append,
      List.filter_append, hnamed.trimNulls.filter_eq]
    simp [trimNulls, trimValue, Json.strings, Json.isNull, trimItems_strings]

def own (identity : ResourceIdentity) (evaluated : Entries Json) : Entries Json :=
  (evaluated.filter fun e => !isReserved e.1).foldl (fun (acc : Entries Json) e => acc.insert e.1 e.2)
    [("id", .str identity.id)]

/-- The id, what the evaluated declaration sets, and what tells the resource. -/
def named (identity : ResourceIdentity) (evaluated : Entries Json) : Entries Json :=
  (((own identity evaluated).insert "name" (.str identity.name)).insert "type" (.str identity.type)).insert "scope"
    (.str identity.scope)

theorem makeBody_eq (identity : ResourceIdentity) (evaluated : Entries Json) (dependsOn : List String) :
    makeBody identity evaluated dependsOn = trimNulls (if dependsOn.isEmpty then named identity evaluated
      else (named identity evaluated).insert "dependsOn" (Json.strings dependsOn)) := rfl

/-- Of a kind that the key of dependencies is not of, a body holds what its members hold that have a value. -/
theorem filter_makeBody {p : String → Bool} (h : p "dependsOn" = false) {identity : ResourceIdentity}
    {evaluated : Entries Json} {dependsOn : List String} :
    (makeBody identity evaluated dependsOn).filter (fun e => p e.1) =
      trimNulls ((named identity evaluated).filter fun e => p e.1) := by
  rw [makeBody_eq, filter_trimNulls]
  split
  · rfl
  · rw [Entries.filter_insert_of_not h]

/-- The id comes first, and what the evaluated declaration sets after it. -/
theorem own_eq {evaluated : Entries Json} (hn : evaluated.keys.Nodup) (identity : ResourceIdentity) :
    (own identity evaluated).keys.Nodup ∧
      own identity evaluated = ("id", .str identity.id) :: evaluated.filter fun e => !isReserved e.1 := by
  have hsub : (Entries.keys (evaluated.filter fun e => !isReserved e.1)).Nodup :=
    hn.sublist (List.filter_sublist.map Prod.fst)
  have hid : "id" ∉ Entries.keys (evaluated.filter fun e => !isReserved e.1) := by
    intro hid
    obtain ⟨e, he, hkey⟩ := List.mem_map.mp hid
    have hreserved := (List.mem_filter.mp he).2
    rw [hkey] at hreserved
    exact absurd hreserved (show (!isReserved "id") ≠ true by decide)
  have hall := List.nodup_cons.mpr ⟨hid, hsub⟩
  have hown : own identity evaluated = ("id", .str identity.id) :: evaluated.filter fun e => !isReserved e.1 :=
    Entries.foldl_insert_eq_append hall
  exact ⟨hown ▸ hall, hown⟩

theorem mem_keys_own {evaluated : Entries Json} (hn : evaluated.keys.Nodup) (identity : ResourceIdentity) {key : String}
    (h : key ∈ (own identity evaluated).keys) : key = "id" ∨ key ∈ evaluated.keys ∧ isReserved key = false := by
  rw [(own_eq hn identity).2] at h
  rcases List.mem_cons.mp h with rfl | h
  · exact .inl rfl
  · obtain ⟨e, he, rfl⟩ := List.mem_map.mp h
    obtain ⟨he, hr⟩ := List.mem_filter.mp he
    exact .inr ⟨List.mem_map_of_mem he, by simpa using hr⟩

theorem spelled_own {evaluated : Entries Json} (hn : evaluated.keys.Nodup) (identity : ResourceIdentity) {name : String}
    (hid : Name.same "id" name = false)
    (h : ∀ key ∈ evaluated.keys, isReserved key = false → Name.same key name = true → key = name) :
    Spelled name (own identity evaluated) := by
  intro key hk hs
  rcases mem_keys_own hn identity hk with rfl | ⟨hk, hr⟩
  · rw [hid] at hs
    cases hs
  · exact h key hk hr hs

section
variable {identity : ResourceIdentity} {evaluated : Entries Json} {dependsOn : List String}

theorem mem_keys_named (hn : evaluated.keys.Nodup) {key : String} (h : key ∈ (named identity evaluated).keys) :
    key ∈ ["id", "name", "type", "scope"] ∨ key ∈ evaluated.keys := by
  rcases Entries.mem_keys_insert h with rfl | h
  · exact .inl (by decide)
  rcases Entries.mem_keys_insert h with rfl | h
  · exact .inl (by decide)
  rcases Entries.mem_keys_insert h with rfl | h
  · exact .inl (by decide)
  rcases mem_keys_own hn identity h with rfl | ⟨h, -⟩
  · exact .inl (by decide)
  · exact .inr h

/-- A key of a body is one that the expansion sets, or one of the evaluated declaration. -/
theorem mem_keys_makeBody (hn : evaluated.keys.Nodup) {key : String}
    (h : key ∈ (makeBody identity evaluated dependsOn).keys) :
    key ∈ ["dependsOn", "id", "name", "type", "scope"] ∨ key ∈ evaluated.keys := by
  have hnamed (hk : key ∈ (named identity evaluated).keys) :
      key ∈ ["dependsOn", "id", "name", "type", "scope"] ∨ key ∈ evaluated.keys :=
    (mem_keys_named hn hk).imp_left (List.mem_cons_of_mem _)
  obtain ⟨⟨_, w⟩, he, rfl⟩ := List.mem_map.mp h
  rw [makeBody_eq] at he
  obtain ⟨v, hv, -⟩ := mem_trimNulls.mp he
  have hkey := List.mem_map_of_mem (f := Prod.fst) hv
  split at hkey
  · exact hnamed hkey
  · rcases Entries.mem_keys_insert hkey with rfl | hk
    · exact .inl List.mem_cons_self
    · exact hnamed hk

theorem head?_makeBody (hn : evaluated.keys.Nodup) :
    (makeBody identity evaluated dependsOn).head? = some ("id", .str identity.id) := by
  have hown : (own identity evaluated).head? = some ("id", .str identity.id) := by
    rw [(own_eq hn identity).2, List.head?_cons]
  have hnamed : (named identity evaluated).head? = some ("id", .str identity.id) :=
    Entries.head?_insert (Entries.head?_insert (Entries.head?_insert hown (by simp) _) (by simp) _) (by simp) _
  rw [makeBody_eq]
  apply head?_trimNulls
  split
  · exact hnamed
  · exact Entries.head?_insert hnamed (by simp) _

theorem filter_same_makeBody {name : String} (h : Name.same "dependsOn" name = false) :
    (makeBody identity evaluated dependsOn).filter (fun e => Name.same e.1 name) =
      trimNulls ((named identity evaluated).filter fun e => Name.same e.1 name) :=
  filter_makeBody (p := (Name.same · name)) h

theorem filter_same_insert {es : Entries Json} {key name : String} (h : Name.same key name = false) (v : Json) :
    (es.insert key v).filter (fun e => Name.same e.1 name) = es.filter fun e => Name.same e.1 name :=
  Entries.filter_insert_of_not (p := (Name.same · name)) h es v

theorem filter_id_makeBody (hn : evaluated.keys.Nodup) :
    (makeBody identity evaluated dependsOn).filter (fun e => Name.same e.1 "id") = [("id", .str identity.id)] := by
  have hid : (evaluated.filter fun e => !isReserved e.1).filter (fun e => Name.same e.1 "id") = [] := by
    rw [List.filter_filter, List.filter_eq_nil_iff]
    intro e _ he
    obtain ⟨hs, hr⟩ := Bool.and_eq_true_iff.mp he
    simp [isReserved, hs] at hr
  rw [filter_same_makeBody (by decide), named, filter_same_insert (by decide), filter_same_insert (by decide),
    filter_same_insert (by decide), (own_eq hn identity).2, List.filter_cons, if_pos (Name.same_self "id"), hid]
  rfl

theorem filter_name_makeBody (hn : evaluated.keys.Nodup) (h : Spelled "name" evaluated) :
    (makeBody identity evaluated dependsOn).filter (fun e => Name.same e.1 "name") =
      [("name", .str identity.name)] := by
  have hspelled : Spelled "name" (own identity evaluated) :=
    spelled_own hn identity (by decide) fun key hk _ => h key hk
  rw [filter_same_makeBody (by decide), named, filter_same_insert (by decide), filter_same_insert (by decide),
    hspelled.filter_insert (own_eq hn identity).1]
  rfl

theorem filter_type_makeBody (hn : evaluated.keys.Nodup) (h : Spelled "type" evaluated) :
    (makeBody identity evaluated dependsOn).filter (fun e => Name.same e.1 "type") =
      [("type", .str identity.type)] := by
  have hown : Spelled "type" (own identity evaluated) := spelled_own hn identity (by decide) fun key hk _ => h key hk
  have hspelled := hown.insert (.inl (by decide : Name.same "name" "type" = false)) (.str identity.name)
  have hnodup := Entries.nodup_insert (own_eq hn identity).1 "name" (.str identity.name)
  rw [filter_same_makeBody (by decide), named, filter_same_insert (by decide), hspelled.filter_insert hnodup]
  rfl

/-- The key of the scope is reserved, so that no declaration sets another spelling of it. -/
theorem filter_scope_makeBody (hn : evaluated.keys.Nodup) :
    (makeBody identity evaluated dependsOn).filter (fun e => Name.same e.1 "scope") =
      [("scope", .str identity.scope)] := by
  have hown : Spelled "scope" (own identity evaluated) :=
    spelled_own hn identity (by decide) fun key _ hr hs => by simp [isReserved, hs] at hr
  have hnamed := hown.insert (.inl (by decide : Name.same "name" "scope" = false)) (.str identity.name)
  have hspelled := hnamed.insert (.inl (by decide : Name.same "type" "scope" = false)) (.str identity.type)
  have hnodup := Entries.nodup_insert (own_eq hn identity).1 "name" (.str identity.name)
  have hnodup' := Entries.nodup_insert hnodup "type" (.str identity.type)
  rw [filter_same_makeBody (by decide), named, hspelled.filter_insert hnodup']
  rfl

/-- The arrays of a body are those of the evaluated declaration, item by item, but under the keys that the expansion
sets. -/
theorem contains_makeBody_iff (hn : evaluated.keys.Nodup) {key : String} {place : PropertyPath} {ys : List Json}
    (hr : isReserved key = false) (hname : Name.same key "name" = false) (htype : Name.same key "type" = false) :
    (Json.arr ys).Contains (.key key :: place) (.obj (makeBody identity evaluated dependsOn)) ↔
      ∃ xs, (Json.arr xs).Contains (.key key :: place) (.obj evaluated) ∧ ys = xs.map trimValue := by
  let free (key : String) : Bool := !isReserved key && !Name.same key "name" && !Name.same key "type"
  have hfree : free key = true := by simp [free, hr, hname, htype]
  have hnamed : (named identity evaluated).filter (fun e => free e.1) = evaluated.filter fun e => free e.1 := by
    unfold named
    rw [Entries.filter_insert_of_not (by decide : free "scope" = false),
      Entries.filter_insert_of_not (by decide : free "type" = false),
      Entries.filter_insert_of_not (by decide : free "name" = false), (own_eq hn identity).2,
      List.filter_cons, if_neg (show ¬ free "id" = true by decide), List.filter_filter]
    refine List.filter_congr fun e _ => ?_
    cases hreserved : isReserved e.1 <;> simp [free, hreserved]
  rw [← Json.contains_filter_iff hfree, filter_makeBody (by decide), hnamed]
  refine Iff.trans (contains_trimValue_iff (v := .obj _)) ?_
  simp only [Json.contains_filter_iff hfree]

end

/-- What the body of a resource is, made of an evaluated declaration. It begins with the id; the id, the name, the type
and the scope of the resource stand under one key each, and so do the ids that it depends on, if there are any; no key
steers the expansion. No member is null at any depth, and the arrays are those of the evaluated declaration, item by
item. -/
structure WellFormed (r : ResourceValue) (evaluated : Entries Json) : Prop where
  first : r.body.head? = some ("id", .str r.identity.id)
  id : r.body.filter (fun e => Name.same e.1 "id") = [("id", .str r.identity.id)]
  name : r.body.filter (fun e => Name.same e.1 "name") = [("name", .str r.identity.name)]
  type : r.body.filter (fun e => Name.same e.1 "type") = [("type", .str r.identity.type)]
  scope : r.body.filter (fun e => Name.same e.1 "scope") = [("scope", .str r.identity.scope)]
  dependsOn : r.body.filter (fun e => Name.same e.1 "dependsOn") =
    if r.dependsOn = [] then [] else [("dependsOn", Json.strings r.dependsOn)]
  unsteered : ∀ key ∈ r.body.keys, ∀ name ∈ ["copy", "condition", "existing", "resources"], Name.same key name = false
  noNulls : (Json.obj r.body).hasNullMember = false
  arrays : ∀ key place ys, isReserved key = false → Name.same key "name" = false → Name.same key "type" = false →
    ((Json.arr ys).Contains (.key key :: place) (.obj r.body) ↔
      ∃ xs, (Json.arr xs).Contains (.key key :: place) (.obj evaluated) ∧ ys = xs.map trimValue)

/-- The body that is made of an evaluated declaration is well formed if the name and the type stand under no other
spelling, and no key steers the expansion. -/
theorem wellFormed_of_makeBody {r : ResourceValue} {evaluated : Entries Json}
    (hbody : r.body = makeBody r.identity evaluated r.dependsOn) (hn : evaluated.keys.Nodup)
    (hname : Spelled "name" evaluated) (htype : Spelled "type" evaluated)
    (hsteered : ∀ key ∈ evaluated.keys, ∀ name ∈ ["copy", "condition", "existing", "resources"],
      Name.same key name = false) : r.WellFormed evaluated := by
  constructor
  case first =>
    rw [hbody]
    exact head?_makeBody hn
  case id =>
    rw [hbody]
    exact filter_id_makeBody hn
  case name =>
    rw [hbody]
    exact filter_name_makeBody hn hname
  case type =>
    rw [hbody]
    exact filter_type_makeBody hn htype
  case scope =>
    rw [hbody]
    exact filter_scope_makeBody hn
  case dependsOn =>
    rw [hbody]
    exact makeBody_dependsOn r.identity evaluated r.dependsOn
  case unsteered =>
    intro key hk name hname
    rw [hbody] at hk
    rcases mem_keys_makeBody hn hk with hk | hk
    · exact (by decide : ∀ key ∈ ["dependsOn", "id", "name", "type", "scope"],
        ∀ name ∈ ["copy", "condition", "existing", "resources"], Name.same key name = false) key hk name hname
    · exact hsteered key hk name hname
  case noNulls =>
    rw [hbody]
    exact membersHaveNull_trimNulls _
  case arrays =>
    intro key place ys hr hname htype
    rw [hbody]
    exact contains_makeBody_iff hn hr hname htype

end ResourceValue
end ResourceTemplate
