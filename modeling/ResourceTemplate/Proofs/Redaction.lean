import ResourceTemplate.Deployment.Scope
import ResourceTemplate.Proofs.Entries
import ResourceTemplate.Redaction

namespace ResourceTemplate

namespace Json

/-- What is compared entry by entry has an equal value under each name. -/
theorem exists_of_eqUnorderedEntries {xs ys : List (String × Json)}
    (h : eqUnorderedEntries xs ys = true) {key : String} {v : Json}
    (hv : Entries.get? xs key = some v) :
    ∃ w, Entries.get? ys key = some w ∧ v.eqUnordered w = true := by
  induction xs with
  | nil => cases hv
  | cons e xs ih =>
    obtain ⟨k, u⟩ := e
    unfold eqUnorderedEntries at h
    rw [Bool.and_eq_true] at h
    rw [Entries.get?_cons] at hv
    split at hv
    · rename_i hk
      cases hv
      rw [← beq_iff_eq.mp hk]
      have hw := h.1
      split at hw
      · exact ⟨_, by assumption, hw⟩
      · cases hw
    · exact ih h.2 hv

mutual

theorem eqUnordered_trans : (a b c : Json) → a.eqUnordered b = true → b.eqUnordered c = true →
    a.eqUnordered c = true
  | .arr xs, .arr ys, .arr zs, h, k => by
    unfold eqUnordered at *
    exact eqUnorderedItems_trans xs ys zs h k
  | .obj xs, .obj ys, .obj zs, h, k => by
    unfold eqUnordered at *
    rw [Bool.and_eq_true, beq_iff_eq] at *
    exact ⟨h.1.trans k.1, eqUnorderedEntries_trans xs h.2 k.2⟩
  | .null, .null, .null, _, _ => rfl
  | .bool _, .bool _, .bool _, h, k => by
    simp only [eqUnordered, beq_iff_eq] at *
    exact h.trans k
  | .str _, .str _, .str _, h, k => by
    simp only [eqUnordered, beq_iff_eq] at *
    exact h.trans k
  | .num (.int _), .num (.int _), .num (.int _), h, k => by
    simp only [eqUnordered, Number.same, beq_iff_eq] at *
    exact h.trans k
  | .num (.float _), .num (.float _), .num (.float _), h, k => by
    simp only [eqUnordered, Number.same, Binary64.same, beq_iff_eq] at *
    exact h.trans k

theorem eqUnorderedItems_trans : (xs ys zs : List Json) → eqUnorderedItems xs ys = true →
    eqUnorderedItems ys zs = true → eqUnorderedItems xs zs = true
  | [], [], [], _, _ => rfl
  | x :: xs, y :: ys, z :: zs, h, k => by
    unfold eqUnorderedItems at *
    rw [Bool.and_eq_true] at *
    exact ⟨eqUnordered_trans x y z h.1 k.1, eqUnorderedItems_trans xs ys zs h.2 k.2⟩

theorem eqUnorderedEntries_trans : (xs : List (String × Json)) → {ys zs : List (String × Json)} →
    eqUnorderedEntries xs ys = true → eqUnorderedEntries ys zs = true →
    eqUnorderedEntries xs zs = true
  | [], _, _, _, _ => rfl
  | (key, v) :: xs, ys, zs, h, k => by
    unfold eqUnorderedEntries at h ⊢
    rw [Bool.and_eq_true] at *
    refine ⟨?_, eqUnorderedEntries_trans xs h.2 k⟩
    have hv := h.1
    split at hv
    · rename_i w hw
      obtain ⟨u, hu, hwu⟩ := exists_of_eqUnorderedEntries k hw
      rw [hu]
      exact eqUnordered_trans v w u hv hwu
    · cases hv

end

/-- The value at a place, if there is one. A wildcard means no single place. -/
def at? : PropertyPath → Json → Option Json
  | [], v => some v
  | .key name :: rest, .obj es => (Entries.get? es name).bind (at? rest)
  | .index i :: rest, .arr items => items[i]?.bind (at? rest)
  | _, _ => none

theorem at?_key {v w : Json} {name : String} {place : PropertyPath} : v.at? (.key name :: place) = some w ↔
    ∃ es u, v = .obj es ∧ Entries.get? es name = some u ∧ u.at? place = some w := by
  cases v with
  | obj es => exact Option.bind_eq_some_iff.trans ⟨fun ⟨u, h⟩ => ⟨es, u, rfl, h⟩, fun ⟨_, u, he, h⟩ => by
      cases he
      exact ⟨u, h⟩⟩
  | _ => simp [at?]

theorem at?_index {v w : Json} {i : Nat} {place : PropertyPath} : v.at? (.index i :: place) = some w ↔
    ∃ items u, v = .arr items ∧ items[i]? = some u ∧ u.at? place = some w := by
  cases v with
  | arr items => exact Option.bind_eq_some_iff.trans ⟨fun ⟨u, h⟩ => ⟨items, u, rfl, h⟩, fun ⟨_, u, he, h⟩ => by
      cases he
      exact ⟨u, h⟩⟩
  | _ => simp [at?]

/-- Whether a place is hidden: the placeholder of a secret stands there or on the way there. -/
inductive Hidden : PropertyPath → Json → Prop
  | here (path : PropertyPath) : Hidden path (.str Placeholder.secret)
  | member {name : String} {rest : PropertyPath} {es : Entries Json} {v : Json}
      (hv : es.get? name = some v) (h : Hidden rest v) : Hidden (.key name :: rest) (.obj es)
  | item {i : Nat} {rest : PropertyPath} {items : List Json} {v : Json}
      (hv : items[i]? = some v) (h : Hidden rest v) : Hidden (.index i :: rest) (.arr items)

/-- Whether a value shows another: it is a string or an object that is not empty and the same up to the
order of names, and no placeholder. -/
structure Shows (v w : Json) : Prop where
  trackable : Scope.isTrackable v = true
  same : v.eqUnordered w = true
  plain : ∀ s, w = .str s → Placeholder.isSecret s = false

end Json

namespace Redaction

theorem get?_ofMembers (secure : List Json) (here : String) (es : List (String × Json)) (key : String) :
    Entries.get? (ofMembers secure here es).1 key =
      (Entries.get? es key).map fun v => (ofValue secure (PropertyPath.joinKey here key) v).1 := by
  induction es with
  | nil => rfl
  | cons e es ih =>
    obtain ⟨k, v⟩ := e
    unfold ofMembers
    rw [Entries.get?_cons, Entries.get?_cons]
    by_cases hk : k = key
    · subst hk
      simp
    · simp [hk, ih]

theorem getElem?_ofItems (secure : List Json) (here : String) (n : Nat) (items : List Json) (i : Nat) :
    (ofItems secure here n items).1[i]? =
      items[i]?.map fun v => (ofValue secure (PropertyPath.joinIndex here (n + i)) v).1 := by
  induction items generalizing n i with
  | nil => rfl
  | cons v items ih =>
    unfold ofItems
    cases i with
    | zero => rfl
    | succ i =>
      rw [List.getElem?_cons_succ, List.getElem?_cons_succ, ih, Nat.add_right_comm, Nat.add_assoc]

theorem ofValue_obj (secure : List Json) (here : String) (es : List (String × Json)) :
    (ofValue secure here (.obj es)).1 = .str Placeholder.secret ∨
      (ofValue secure here (.obj es)).1 = .obj (ofMembers secure here es).1 := by
  unfold ofValue
  split
  · exact .inl rfl
  · exact .inr rfl

theorem ofValue_hidden {secure : List Json} {path : PropertyPath} {v w : Json} (here : String)
    (hw : v.at? path = some w) (hs : isSecure secure w = true) :
    (ofValue secure here v).1.Hidden path := by
  induction path generalizing v here with
  | nil =>
    cases hw
    cases w with
    | str s =>
      rw [ofValue, if_pos hs]
      exact .here []
      all_goals simp
    | obj es =>
      rw [ofValue, if_pos hs]
      exact .here []
    | arr items => cases hs
    | null => cases hs
    | bool b => cases hs
    | num n => cases hs
  | cons step rest ih =>
    cases v with
    | obj es =>
      cases step with
      | key name =>
        obtain ⟨u, hu, hw⟩ := Option.bind_eq_some_iff.mp hw
        rcases ofValue_obj secure here es with h | h
        · rw [h]
          exact .here _
        · rw [h]
          refine .member ?_ (ih (PropertyPath.joinKey here name) hw)
          rw [get?_ofMembers, hu]
          rfl
      | index i => cases hw
      | wildcard => cases hw
    | arr items =>
      cases step with
      | index i =>
        obtain ⟨u, hu, hw⟩ := Option.bind_eq_some_iff.mp hw
        refine .item ?_ (ih (PropertyPath.joinIndex here (0 + i)) hw)
        rw [getElem?_ofItems, hu]
        rfl
      | key name => cases hw
      | wildcard => cases hw
    | str s => cases step <;> cases hw
    | null => cases step <;> cases hw
    | bool b => cases step <;> cases hw
    | num n => cases step <;> cases hw

theorem get?_onMember (f : Json → Redacted Json) (key : String) (es : List (String × Json))
    (name : String) :
    Entries.get? (onMember f key es).1 name =
      if name = key then (Entries.get? es name).map fun v => (f v).1 else Entries.get? es name := by
  induction es with
  | nil => simp [onMember]
  | cons e es ih =>
    obtain ⟨k, v⟩ := e
    unfold onMember
    by_cases hk : k = key
    · subst hk
      simp only [beq_self_eq_true, if_true, Entries.get?_cons]
      by_cases hn : k = name
      · simp [hn]
      · simp [hn, Ne.symm hn]
    · simp only [beq_iff_eq, hk, if_false, Entries.get?_cons, ih]
      by_cases hn : k = name
      · subst hn
        simp [hk]
      · simp [hn]

theorem keys_onMember (f : Json → Redacted Json) (key : String) (es : List (String × Json)) :
    Entries.keys (onMember f key es).1 = Entries.keys es := by
  unfold Entries.keys
  induction es with
  | nil => rfl
  | cons e es ih =>
    unfold onMember
    split
    · rfl
    · exact congrArg (e.1 :: ·) ih

theorem getElem?_onItem (f : Json → Redacted Json) (i : Nat) (items : List Json) (j : Nat) :
    (onItem f i items).1[j]? = if j = i then items[j]?.map fun v => (f v).1 else items[j]? := by
  induction items generalizing i j with
  | nil => cases i <;> simp [onItem]
  | cons v items ih =>
    cases i with
    | zero => cases j <;> simp [onItem]
    | succ i => cases j <;> simp [onItem, ih]

theorem getElem?_onItems (f : Nat → Json → Redacted Json) (n : Nat) (items : List Json) (j : Nat) :
    (onItems f n items).1[j]? = items[j]?.map fun v => (f (n + j) v).1 := by
  induction items generalizing n j with
  | nil => rfl
  | cons v items ih =>
    unfold onItems
    cases j with
    | zero => rfl
    | succ j =>
      rw [List.getElem?_cons_succ, List.getElem?_cons_succ, ih, Nat.add_right_comm, Nat.add_assoc]

theorem alongPath_secret (path : PropertyPath) (here : String) :
    (alongPath path here (.str Placeholder.secret)).1 = .str Placeholder.secret := by
  cases path with
  | nil =>
    unfold alongPath
    split <;> rfl
  | cons step rest => cases step <;> rfl

theorem alongPath_obj (path : PropertyPath) (here : String) (es : Entries Json) :
    (alongPath path here (.obj es)).1 = .obj es ∨ ∃ rest key there,
      (alongPath path here (.obj es)).1 = .obj (onMember (alongPath rest there) key es).1 := by
  cases path with
  | nil => exact .inl rfl
  | cons step rest =>
    cases step with
    | index i => exact .inl rfl
    | wildcard => exact .inl rfl
    | key name =>
      unfold alongPath
      split
      · exact .inl rfl
      · exact .inr ⟨rest, _, _, rfl⟩

theorem alongPath_arr (path : PropertyPath) (here : String) (items : List Json) :
    (alongPath path here (.arr items)).1 = .arr items ∨
      (∃ rest i there,
        (alongPath path here (.arr items)).1 = .arr (onItem (alongPath rest there) i items).1) ∨
      ∃ rest, (alongPath path here (.arr items)).1 =
        .arr (onItems (fun i => alongPath rest (PropertyPath.joinIndex here i)) 0 items).1 := by
  cases path with
  | nil => exact .inl rfl
  | cons step rest =>
    cases step with
    | key name => exact .inl rfl
    | index i => exact .inr (.inl ⟨rest, i, _, rfl⟩)
    | wildcard => exact .inr (.inr ⟨rest, rfl⟩)

/-- What is hidden stays hidden when the strings at the end of a path are replaced. -/
theorem alongPath_hidden {place : PropertyPath} {v : Json} (h : v.Hidden place) (path : PropertyPath)
    (here : String) : (alongPath path here v).1.Hidden place := by
  induction h generalizing path here with
  | here place =>
    rw [alongPath_secret]
    exact .here place
  | @member name rest es v hv h ih =>
    rcases alongPath_obj path here es with he | ⟨rest', key, there, he⟩
    · rw [he]
      exact .member hv h
    · rw [he]
      by_cases hk : name = key
      · refine .member ?_ (ih rest' there)
        rw [get?_onMember, if_pos hk, hv]
        rfl
      · refine .member ?_ h
        rw [get?_onMember, if_neg hk, hv]
  | @item i rest items v hv h ih =>
    rcases alongPath_arr path here items with he | ⟨rest', j, there, he⟩ | ⟨rest', he⟩
    · rw [he]
      exact .item hv h
    · rw [he]
      by_cases hj : i = j
      · refine .item ?_ (ih rest' there)
        rw [getElem?_onItem, if_pos hj, hv]
        rfl
      · refine .item ?_ h
        rw [getElem?_onItem, if_neg hj, hv]
    · rw [he]
      refine .item ?_ (ih rest' (PropertyPath.joinIndex here (0 + i)))
      rw [getElem?_onItems, hv]
      rfl

/-- To follow a path from a body gives an object with the same keys. -/
theorem alongPath_body (path : PropertyPath) (here : String) (body : Entries Json) :
    ∃ es, (alongPath path here (.obj body)).1 = .obj es ∧ Entries.keys es = body.keys := by
  rcases alongPath_obj path here body with h | ⟨rest, key, there, h⟩
  · exact ⟨body, h, rfl⟩
  · exact ⟨_, h, keys_onMember _ _ _⟩

end Redaction

/-- One body comes of another by redaction: the keys are the same, and what was hidden is hidden. -/
structure Covers (before after : Entries Json) : Prop where
  keys : after.keys = before.keys
  hidden : ∀ place, (Json.obj before).Hidden place → (Json.obj after).Hidden place

theorem Covers.refl (es : Entries Json) : Covers es es := ⟨rfl, fun _ => id⟩

theorem Covers.trans {a b c : Entries Json} (h : Covers a b) (k : Covers b c) : Covers a c :=
  ⟨k.keys.trans h.keys, fun place hp => k.hidden place (h.hidden place hp)⟩

theorem Redaction.inBody_covers (path : PropertyPath) (body : Entries Json) :
    Covers body (inBody path body).1 := by
  unfold inBody
  split
  · rename_i name rest
    obtain ⟨es, he, hk⟩ := alongPath_body (.key name :: rest) "" body
    have hc : Covers body es := ⟨hk, fun place hp => he ▸ alongPath_hidden hp _ _⟩
    generalize alongPath (.key name :: rest) "" (.obj body) = r at he
    obtain ⟨v, paths⟩ := r
    cases he
    exact hc
  · exact .refl body

/-- What the registry replaces in a body leaves hidden what was hidden. -/
theorem Redaction.foldl_inBody_covers (paths : List WrittenPath)
    (acc : Redacted (Entries Json)) :
    Covers acc.1 (paths.foldl (fun (body, found) p =>
      let (body, more) := inBody p.path body
      (body, found ++ more)) acc).1 := by
  induction paths generalizing acc with
  | nil => exact .refl acc.1
  | cons p paths ih =>
    rw [List.foldl_cons]
    exact (inBody_covers p.path acc.1).trans (ih (_, acc.2 ++ _))

theorem SecretRegistry.redact_covers (r : SecretRegistry) (type : String) (keep : Bool)
    (body : Entries Json) : Covers body (r.redact type keep body).1 := by
  unfold redact
  split
  · exact .refl body
  · split
    · exact .refl body
    · exact Redaction.foldl_inBody_covers _ (body, [])

end ResourceTemplate
