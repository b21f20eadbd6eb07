import ResourceTemplate.Proofs.Redaction
import ResourceTemplate.Proofs.Resource

namespace ResourceTemplate

/-- Whether a path means a place: a key means all its spellings, a wildcard means every item. -/
def PropertyPath.means : PropertyPath → PropertyPath → Bool
  | [], [] => true
  | .key name :: rest, .key key :: place => Name.same key name && means rest place
  | .index i :: rest, .index j :: place => i == j && means rest place
  | .wildcard :: rest, .index _ :: place => means rest place
  | _, _ => false

def SecretRegistry.registers (r : SecretRegistry) (type : String) (place : PropertyPath) : Bool :=
  (r.paths? type).any fun paths => paths.any fun p => p.path.means place

namespace Redaction

/-- Where nothing is taken for a secret, nothing is replaced. -/
theorem isSecure_nil (v : Json) : isSecure [] v = false := by
  cases v <;> simp [isSecure]

mutual

theorem ofValue_nil (here : String) : (v : Json) → (ofValue [] here v).1 = v
  | .obj es => by
    rw [ofValue, if_neg (by simp [isSecure_nil])]
    exact congrArg Json.obj (ofMembers_nil here es)
  | .arr items => by
    rw [ofValue]
    exact congrArg Json.arr (ofItems_nil here 0 items)
  | .str s => by simp [ofValue, isSecure_nil]
  | .null => rfl
  | .bool _ => rfl
  | .num _ => rfl

theorem ofItems_nil (here : String) (i : Nat) : (vs : List Json) → (ofItems [] here i vs).1 = vs
  | [] => rfl
  | v :: vs => congrArg₂ List.cons (ofValue_nil _ v) (ofItems_nil here (i + 1) vs)

theorem ofMembers_nil (here : String) : (es : List (String × Json)) → (ofMembers [] here es).1 = es
  | [] => rfl
  | (k, v) :: es =>
    congrArg₂ List.cons (congrArg (Prod.mk k) (ofValue_nil _ v)) (ofMembers_nil here es)

end

theorem at?_alongPath {path place : PropertyPath} {v : Json} {s : String} (h : path.means place = false)
    (hv : v.at? place = some (.str s)) (here : String) :
    (alongPath path here v).1.at? place = some (.str s) := by
  induction place generalizing path v here with
  | nil =>
    cases hv
    cases path with
    | nil => cases h
    | cons step rest => cases step <;> rfl
  | cons step place ih =>
    cases step with
    | key k =>
      obtain ⟨es, w, rfl, hw, hat⟩ := Json.at?_key.mp hv
      cases path with
      | nil => exact hv
      | cons step rest =>
        cases step with
        | index i => exact hv
        | wildcard => exact hv
        | key name =>
          unfold alongPath
          cases hs : Entries.spelling? es name with
          | none => exact hv
          | some key =>
            refine Json.at?_key.mpr ?_
            by_cases hk : k = key
            · have hsame : Name.same k name = true :=
                Name.same_iff.mpr (hk ▸ (Entries.spelling?_eq_some hs).2)
              refine ⟨_, _, rfl, ?_, ih (by simpa [PropertyPath.means, hsame] using h) hat (PropertyPath.joinKey here key)⟩
              rw [get?_onMember, if_pos hk, hw]
              rfl
            · refine ⟨_, w, rfl, ?_, hat⟩
              rw [get?_onMember, if_neg hk, hw]
    | index j =>
      obtain ⟨items, w, rfl, hw, hat⟩ := Json.at?_index.mp hv
      cases path with
      | nil => exact hv
      | cons step rest =>
        cases step with
        | key name => exact hv
        | index i =>
          refine Json.at?_index.mpr ?_
          by_cases hj : j = i
          · refine ⟨_, _, rfl, ?_, ih (by simpa [PropertyPath.means, hj] using h) hat (PropertyPath.joinIndex here i)⟩
            rw [getElem?_onItem, if_pos hj, hw]
            rfl
          · refine ⟨_, w, rfl, ?_, hat⟩
            rw [getElem?_onItem, if_neg hj, hw]
        | wildcard =>
          refine Json.at?_index.mpr ⟨_, _, rfl, ?_, ih h hat (PropertyPath.joinIndex here (0 + j))⟩
          exact (getElem?_onItems _ 0 items j).trans (congrArg _ hw)
    | wildcard => cases v <;> cases hv

theorem at?_inBody {path place : PropertyPath} {body : Entries Json} {s : String} (h : path.means place = false)
    (hv : (Json.obj body).at? place = some (.str s)) :
    (Json.obj (inBody path body).1).at? place = some (.str s) := by
  unfold inBody
  split
  · have halong := at?_alongPath h hv ""
    split
    · rename_i ha
      rw [ha] at halong
      exact halong
    · exact hv
  · exact hv

end Redaction

/-- A string stays at a place that no path of the type means. -/
theorem SecretRegistry.at?_redact {r : SecretRegistry} {type : String} {place : PropertyPath} {s : String}
    (h : r.registers type place = false) (keep : Bool) {body : Entries Json}
    (hv : (Json.obj body).at? place = some (.str s)) :
    (Json.obj (r.redact type keep body).1).at? place = some (.str s) := by
  let stays (acc : Redaction.Redacted (Entries Json)) : Prop := (Json.obj acc.1).at? place = some (.str s)
  unfold redact
  split
  · exact hv
  · split
    · exact hv
    · rename_i paths hpaths
      refine @List.foldlRecOn _ _ stays paths _ _ hv fun acc hacc p hp => Redaction.at?_inBody ?_ hacc
      simp only [registers, hpaths, Option.any_some, List.any_eq_false] at h
      exact Bool.eq_false_iff.mpr (h p hp)

theorem Json.isNull_of_at? {place : PropertyPath} {v : Json} {s : String} (h : v.at? place = some (.str s)) :
    v.isNull = false := by
  cases v with
  | null =>
    cases place with
    | nil => cases h
    | cons step place => cases step <;> cases h
  | _ => rfl

theorem at?_trimValue {place : PropertyPath} {v : Json} {s : String} (hv : v.at? place = some (.str s)) :
    (trimValue v).at? place = some (.str s) := by
  induction place generalizing v with
  | nil =>
    cases hv
    rfl
  | cons step place ih =>
    cases step with
    | key name =>
      obtain ⟨es, w, rfl, hw, hat⟩ := Json.at?_key.mp hv
      exact Json.at?_key.mpr ⟨_, _, rfl, get?_trimNulls hw (Json.isNull_of_at? hat), ih hat⟩
    | index i =>
      obtain ⟨items, w, rfl, hw, hat⟩ := Json.at?_index.mp hv
      exact Json.at?_index.mpr ⟨_, _, rfl, (getElem?_trimItems items i).trans (congrArg _ hw), ih hat⟩
    | wildcard => cases v <;> cases hv

/-- A string of an evaluated declaration stays in the body of the resource, under a key that is not the expansion's to
set. -/
theorem ResourceValue.at?_makeBody {identity : ResourceIdentity} {evaluated : Entries Json} {dependsOn : List String}
    {key : String} {place : PropertyPath} {s : String} (hn : evaluated.keys.Nodup)
    (hv : (Json.obj evaluated).at? (.key key :: place) = some (.str s)) (hr : isReserved key = false)
    (hname : Name.same key "name" = false) (htype : Name.same key "type" = false) :
    (Json.obj (makeBody identity evaluated dependsOn)).at? (.key key :: place) = some (.str s) := by
  obtain ⟨w, hw, hat⟩ := Option.bind_eq_some_iff.mp hv
  exact Option.bind_eq_some_iff.mpr
    ⟨_, get?_makeBody hn hw (Json.isNull_of_at? hat) hr hname htype, at?_trimValue hat⟩

end ResourceTemplate
