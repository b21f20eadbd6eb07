import ResourceTemplate.Proofs.Entries
import ResourceTemplate.Proofs.Redaction.Places

namespace ResourceTemplate

namespace Json

mutual

/-- The value with the placeholder of a secret for whatever stands at a place that is hit. -/
def blot (hit : Place → Bool) : Json → Json
  | .arr items => if hit [] then .str Placeholder.secret else .arr (blotItems hit 0 items)
  | .obj es => if hit [] then .str Placeholder.secret else .obj (blotMembers hit 0 es)
  | v => if hit [] then .str Placeholder.secret else v

def blotItems (hit : Place → Bool) (i : Nat) : List Json → List Json
  | [] => []
  | v :: vs => blot (fun place => hit (i :: place)) v :: blotItems hit (i + 1) vs

def blotMembers (hit : Place → Bool) (i : Nat) : List (String × Json) → List (String × Json)
  | [] => []
  | (key, v) :: es => (key, blot (fun place => hit (i :: place)) v) :: blotMembers hit (i + 1) es

end

theorem blot_of_hit {hit : Place → Bool} (h : hit [] = true) (v : Json) : v.blot hit = .str Placeholder.secret := by
  cases v <;> simp [blot, h]

theorem getElem?_blotItems (hit : Place → Bool) (n : Nat) (items : List Json) (i : Nat) :
    (blotItems hit n items)[i]? = items[i]?.map (blot fun place => hit ((n + i) :: place)) := by
  induction items generalizing n i with
  | nil => simp [blotItems]
  | cons v vs ih =>
    cases i with
    | zero => simp [blotItems]
    | succ i => simp [blotItems, ih, Nat.add_right_comm, Nat.add_assoc]

theorem getElem?_blotMembers (hit : Place → Bool) (n : Nat) (es : Entries Json) (i : Nat) :
    (blotMembers hit n es)[i]? =
      es[i]?.map fun e => (e.1, e.2.blot fun place => hit ((n + i) :: place)) := by
  induction es generalizing n i with
  | nil => simp [blotMembers]
  | cons e es ih =>
    obtain ⟨key, v⟩ := e
    cases i with
    | zero => simp [blotMembers]
    | succ i => simp [blotMembers, ih, Nat.add_right_comm, Nat.add_assoc]

/-- Where a value is not hit itself, its members and items stay at their positions under their keys. -/
theorem child?_blot {hit : Place → Bool} (h : hit [] = false) (v : Json) (i : Nat) :
    (v.blot hit).child? i = (v.child? i).map fun c => (c.1, c.2.blot fun rest => hit (i :: rest)) := by
  cases v with
  | arr items =>
    rw [blot, h, if_neg Bool.false_ne_true, child?, child?, getElem?_blotItems, Nat.zero_add, Option.map_map,
      Option.map_map]
    rfl
  | obj es =>
    rw [blot, h, if_neg Bool.false_ne_true, child?, child?, getElem?_blotMembers, Nat.zero_add, Option.map_map,
      Option.map_map]
    rfl
  | null => simp [blot, h, child?]
  | bool b => simp [blot, h, child?]
  | num n => simp [blot, h, child?]
  | str s => simp [blot, h, child?]

/-- A string that is left is a placeholder, or it was there and neither it nor anything around it was hit. -/
theorem within?_blot_str {hit : Place → Bool} {v : Json} {place : Place} {s : String}
    (h : (v.blot hit).within? place = some (.str s)) : s = Placeholder.secret ∨
      v.within? place = some (.str s) ∧ ∀ above, above <+: place → hit above = false := by
  induction place generalizing v hit with
  | nil =>
    cases hh : hit [] with
    | true =>
      rw [blot_of_hit hh] at h
      cases h
      exact Or.inl rfl
    | false =>
      refine Or.inr ⟨?_, fun above ha => List.prefix_nil.mp ha ▸ hh⟩
      cases v <;> simp_all [blot, within?]
  | cons i rest ih =>
    cases hh : hit [] with
    | true =>
      rw [blot_of_hit hh] at h
      cases h
    | false =>
      rw [within?, child?_blot hh] at h
      cases hc : v.child? i with
      | none => simp [hc] at h
      | some c =>
        rw [hc] at h
        refine (ih h).imp_right ?_
        rintro ⟨hw, hn⟩
        refine ⟨by rw [within?, hc]; exact hw, fun above ha => ?_⟩
        cases above with
        | nil => exact hh
        | cons j above =>
          obtain ⟨rfl, hrest⟩ := List.cons_prefix_cons.mp ha
          exact hn above hrest

/-- A string stays where neither it nor anything around it is hit. -/
theorem within?_blot_of_not_hit {hit : Place → Bool} {v : Json} {place : Place} {s : String}
    (h : v.within? place = some (.str s)) (hnot : ∀ above, above <+: place → hit above = false) :
    (v.blot hit).within? place = some (.str s) := by
  have hh : hit [] = false := hnot [] List.nil_prefix
  induction place generalizing v hit with
  | nil =>
    cases h
    simp [within?, blot, hh]
  | cons i rest ih =>
    obtain ⟨c, hc, hw⟩ := Option.bind_eq_some_iff.mp h
    rw [within?, child?_blot hh, hc]
    refine ih hw (fun above ha => hnot (i :: above) (List.cons_prefix_cons.mpr ⟨rfl, ha⟩)) ?_
    exact hnot [i] (List.cons_prefix_cons.mpr ⟨rfl, List.nil_prefix⟩)

end Json

namespace Redaction

/-- A secret: a secure string that is no placeholder, or an object that is a secure object but for the order of its
members. -/
inductive IsSecret (secure : List Json) : Json → Prop
  | text {s : String} (hplain : Placeholder.isSecret s = false) (h : .str s ∈ secure) : IsSecret secure (.str s)
  | object {es fs : Entries Json} (h : .obj fs ∈ secure) (hsame : (Json.obj fs).eqUnordered (.obj es) = true) :
    IsSecret secure (.obj es)

theorem isSecure_iff {secure : List Json} {v : Json} : isSecure secure v = true ↔ IsSecret secure v := by
  constructor
  · intro h
    cases v with
    | str s =>
      simp only [isSecure, Bool.and_eq_true, Bool.not_eq_true', List.any_eq_true, beq_iff_eq] at h
      obtain ⟨hp, x, hx, hs⟩ := h
      cases x <;> cases hs
      exact .text hp hx
    | obj es =>
      simp only [isSecure, List.any_eq_true, Bool.and_eq_true] at h
      obtain ⟨x, hx, ho, hs⟩ := h
      cases x <;> cases ho
      exact .object hx hs
    | _ => cases h
  · rintro (⟨hp, hx⟩ | ⟨hx, hs⟩)
    · simpa [isSecure, hp] using ⟨_, hx, rfl⟩
    · simpa [isSecure] using ⟨_, hx, rfl, hs⟩

/-- Whether a secret stands at a place that is in no other secret. -/
def Topmost (secure : List Json) (v : Json) (place : Place) : Prop :=
  (∃ w, v.within? place = some w ∧ IsSecret secure w) ∧
    ∀ above, above <+: place → above ≠ place → ∀ w, v.within? above = some w → ¬ IsSecret secure w

variable {secure : List Json}

theorem topmost_nil_iff {v : Json} : Topmost secure v [] ↔ IsSecret secure v := by
  constructor
  · rintro ⟨⟨w, hw, hs⟩, -⟩
    cases hw
    exact hs
  · exact fun h => ⟨⟨v, rfl, h⟩, fun above ha hne => absurd (List.prefix_nil.mp ha) hne⟩

/-- Nothing in a secret is a topmost secret; what is topmost in a member or item of another value is so in it. -/
theorem topmost_cons_iff {v : Json} {i : Nat} {rest : Place} :
    Topmost secure v (i :: rest) ↔ ¬ IsSecret secure v ∧ ∃ c, v.child? i = some c ∧ Topmost secure c.2 rest := by
  constructor
  · rintro ⟨⟨w, hw, hs⟩, htop⟩
    obtain ⟨c, hc, hw⟩ := Option.bind_eq_some_iff.mp hw
    refine ⟨htop [] List.nil_prefix (List.cons_ne_nil i rest).symm v rfl, c, hc, ⟨w, hw, hs⟩, ?_⟩
    intro above ha hne u hu
    refine htop (i :: above) (List.cons_prefix_cons.mpr ⟨rfl, ha⟩) (fun h => hne (List.cons.inj h).2) u ?_
    rw [Json.within?, hc]
    exact hu
  · rintro ⟨hv, c, hc, ⟨w, hw, hs⟩, htop⟩
    refine ⟨⟨w, by rw [Json.within?, hc]; exact hw, hs⟩, ?_⟩
    intro above ha hne u hu
    cases above with
    | nil =>
      cases hu
      exact hv
    | cons j above =>
      obtain ⟨rfl, hrest⟩ := List.cons_prefix_cons.mp ha
      rw [Json.within?, hc] at hu
      exact htop above hrest (fun h => hne (congrArg (j :: ·) h)) u hu

theorem exists_topmost {v w : Json} {place : Place} (hw : v.within? place = some w) (hs : IsSecret secure w) :
    ∃ above, above <+: place ∧ Topmost secure v above := by
  induction place generalizing v with
  | nil =>
    cases hw
    exact ⟨[], List.nil_prefix, topmost_nil_iff.mpr hs⟩
  | cons i rest ih =>
    by_cases hv : IsSecret secure v
    · exact ⟨[], List.nil_prefix, topmost_nil_iff.mpr hv⟩
    · obtain ⟨c, hc, hw⟩ := Option.bind_eq_some_iff.mp hw
      obtain ⟨above, ha, htop⟩ := ih hw
      exact ⟨i :: above, List.cons_prefix_cons.mpr ⟨rfl, ha⟩, topmost_cons_iff.mpr ⟨hv, c, hc, htop⟩⟩

mutual

def secretPlaces (secure : List Json) : Json → List Place
  | .arr items => placesInItems secure 0 items
  | .obj es => if isSecure secure (.obj es) then [[]] else placesInMembers secure 0 es
  | v => if isSecure secure v then [[]] else []

def placesInItems (secure : List Json) (i : Nat) : List Json → List Place
  | [] => []
  | v :: vs => (secretPlaces secure v).map (i :: ·) ++ placesInItems secure (i + 1) vs

def placesInMembers (secure : List Json) (i : Nat) : List (String × Json) → List Place
  | [] => []
  | (_, v) :: es => (secretPlaces secure v).map (i :: ·) ++ placesInMembers secure (i + 1) es

end

theorem mem_placesInItems {n : Nat} {items : List Json} {place : Place} : place ∈ placesInItems secure n items ↔
    ∃ i v rest, items[i]? = some v ∧ place = (n + i) :: rest ∧ rest ∈ secretPlaces secure v := by
  induction items generalizing n with
  | nil => simp [placesInItems]
  | cons v vs ih =>
    rw [placesInItems, List.mem_append, ih, List.mem_map]
    constructor
    · rintro (⟨rest, hr, rfl⟩ | ⟨i, w, rest, hw, rfl, hr⟩)
      · exact ⟨0, v, rest, rfl, rfl, hr⟩
      · exact ⟨i + 1, w, rest, hw, by rw [Nat.add_right_comm, Nat.add_assoc], hr⟩
    · rintro ⟨i, w, rest, hw, rfl, hr⟩
      cases i with
      | zero =>
        cases hw
        exact Or.inl ⟨rest, hr, rfl⟩
      | succ i => exact Or.inr ⟨i, w, rest, hw, by rw [Nat.add_right_comm, Nat.add_assoc], hr⟩

theorem mem_placesInMembers {n : Nat} {es : Entries Json} {place : Place} : place ∈ placesInMembers secure n es ↔
    ∃ i e rest, es[i]? = some e ∧ place = (n + i) :: rest ∧ rest ∈ secretPlaces secure e.2 := by
  induction es generalizing n with
  | nil => simp [placesInMembers]
  | cons e es ih =>
    rw [placesInMembers, List.mem_append, ih, List.mem_map]
    constructor
    · rintro (⟨rest, hr, rfl⟩ | ⟨i, w, rest, hw, rfl, hr⟩)
      · exact ⟨0, e, rest, rfl, rfl, hr⟩
      · exact ⟨i + 1, w, rest, hw, by rw [Nat.add_right_comm, Nat.add_assoc], hr⟩
    · rintro ⟨i, w, rest, hw, rfl, hr⟩
      cases i with
      | zero =>
        cases hw
        exact Or.inl ⟨rest, hr, rfl⟩
      | succ i => exact Or.inr ⟨i, w, rest, hw, by rw [Nat.add_right_comm, Nat.add_assoc], hr⟩

/-- A value is a secret itself, or its secrets are those of its members and items. -/
theorem secretPlaces_of_isSecret {v : Json} (h : IsSecret secure v) : secretPlaces secure v = [[]] := by
  have hs := isSecure_iff.mpr h
  cases h <;> simp [secretPlaces, hs]

theorem nil_mem_secretPlaces {v : Json} : [] ∈ secretPlaces secure v ↔ IsSecret secure v := by
  refine ⟨fun h => ?_, fun h => by simp [secretPlaces_of_isSecret h]⟩
  by_contra hn
  have hs : isSecure secure v = false := Bool.eq_false_iff.mpr fun hs => hn (isSecure_iff.mp hs)
  cases v <;> simp [secretPlaces, hs, mem_placesInItems, mem_placesInMembers] at h

theorem cons_mem_secretPlaces {v : Json} {i : Nat} {rest : Place} : i :: rest ∈ secretPlaces secure v ↔
    ¬ IsSecret secure v ∧ ∃ c, v.child? i = some c ∧ rest ∈ secretPlaces secure c.2 := by
  by_cases hv : IsSecret secure v
  · simp [secretPlaces_of_isSecret hv, hv]
  · have hs : isSecure secure v = false := Bool.eq_false_iff.mpr fun hs => hv (isSecure_iff.mp hs)
    cases v <;> simp [-Prod.exists, secretPlaces, hs, hv, mem_placesInItems, mem_placesInMembers, Json.child?]

theorem mem_secretPlaces {v : Json} {place : Place} : place ∈ secretPlaces secure v ↔ Topmost secure v place := by
  induction place generalizing v with
  | nil => rw [nil_mem_secretPlaces, topmost_nil_iff]
  | cons i rest ih => simp only [cons_mem_secretPlaces, topmost_cons_iff, ih]

mutual

theorem pairwise_secretPlaces : (v : Json) → (secretPlaces secure v).Pairwise (· < ·)
  | .arr items => by
    rw [secretPlaces]
    exact pairwise_placesInItems 0 items
  | .obj es => by
    rw [secretPlaces]
    split
    · exact List.pairwise_singleton _ _
    · exact pairwise_placesInMembers 0 es
  | .null => List.Pairwise.nil
  | .bool _ => List.Pairwise.nil
  | .num _ => List.Pairwise.nil
  | .str s => by
    simp only [secretPlaces]
    split
    · exact List.pairwise_singleton _ _
    · exact List.Pairwise.nil

theorem pairwise_placesInItems (n : Nat) : (items : List Json) → (placesInItems secure n items).Pairwise (· < ·)
  | [] => List.Pairwise.nil
  | v :: vs => by
    rw [placesInItems]
    refine Positions.pairwise_branch (pairwise_secretPlaces v) (pairwise_placesInItems (n + 1) vs) fun p hp => ?_
    obtain ⟨i, _, rest, -, rfl, -⟩ := mem_placesInItems.mp hp
    exact ⟨_, rest, rfl, by omega⟩

theorem pairwise_placesInMembers (n : Nat) :
    (es : List (String × Json)) → (placesInMembers secure n es).Pairwise (· < ·)
  | [] => List.Pairwise.nil
  | (_, v) :: es => by
    rw [placesInMembers]
    refine Positions.pairwise_branch (pairwise_secretPlaces v) (pairwise_placesInMembers (n + 1) es) fun p hp => ?_
    obtain ⟨i, _, rest, -, rfl, -⟩ := mem_placesInMembers.mp hp
    exact ⟨_, rest, rfl, by omega⟩

end

theorem contains_nil (v : Json) : (secretPlaces secure v).contains [] = isSecure secure v := by
  rw [Bool.eq_iff_iff, List.contains_iff_mem, nil_mem_secretPlaces, isSecure_iff]

theorem contains_cons {v : Json} {c : PathSegment × Json} {i : Nat} (hv : isSecure secure v = false)
    (hc : v.child? i = some c) (rest : Place) :
    (secretPlaces secure v).contains (i :: rest) = (secretPlaces secure c.2).contains rest := by
  have hn : ¬ IsSecret secure v := fun h => by simp [isSecure_iff.mpr h] at hv
  rw [Bool.eq_iff_iff, List.contains_iff_mem, List.contains_iff_mem, cons_mem_secretPlaces, hc]
  simp [hn]

mutual

/-- What stands at the places of the topmost secrets is replaced, and the paths of these places are told. -/
theorem ofValue_eq (here : String) : (v : Json) → ofValue secure here v =
    (v.blot (secretPlaces secure v).contains,
      (secretPlaces secure v).map fun place => PropertyPath.renderFrom here (v.pathTo place))
  | .arr items => by
    have hs : isSecure secure (.arr items) = false := rfl
    rw [ofValue, ofItems_eq here 0 items (secretPlaces secure (.arr items)).contains
      (fun place => PropertyPath.renderFrom here ((Json.arr items).pathTo place)), Json.blot, contains_nil, hs]
    · rfl
    · intro i v hv rest
      exact contains_cons hs (c := (.index (0 + i), v)) (by simp [Json.child?, hv]) rest
    · intro i v hv rest
      simp [Json.pathTo, Json.child?, hv, PropertyPath.renderFrom]
  | .obj es => by
    cases hs : isSecure secure (.obj es) with
    | true => simp [ofValue, secretPlaces, Json.blot, hs, PropertyPath.renderFrom, Json.pathTo]
    | false =>
      rw [ofValue, hs, ofMembers_eq here 0 es (secretPlaces secure (.obj es)).contains
        (fun place => PropertyPath.renderFrom here ((Json.obj es).pathTo place)), Json.blot, contains_nil, hs]
      · rw [secretPlaces, hs]
        rfl
      · intro i e he rest
        exact contains_cons hs (c := (.key e.1, e.2)) (by simp [Json.child?, he]) rest
      · intro i e he rest
        simp [Json.pathTo, Json.child?, he, PropertyPath.renderFrom]
  | .str s => by
    cases hs : isSecure secure (.str s) <;>
      simp [ofValue, secretPlaces, Json.blot, hs, PropertyPath.renderFrom, Json.pathTo]
  | .null => rfl
  | .bool _ => rfl
  | .num _ => rfl

theorem ofItems_eq (here : String) (n : Nat) : (items : List Json) → (hit : Place → Bool) → (tell : Place → String) →
    (∀ i v, items[i]? = some v → ∀ rest, hit ((n + i) :: rest) = (secretPlaces secure v).contains rest) →
    (∀ i v, items[i]? = some v → ∀ rest, tell ((n + i) :: rest) =
      PropertyPath.renderFrom (PropertyPath.joinIndex here (n + i)) (v.pathTo rest)) →
    ofItems secure here n items = (Json.blotItems hit n items, (placesInItems secure n items).map tell)
  | [], _, _, _, _ => rfl
  | v :: vs, hit, tell, hhit, htell => by
    have hv : (fun rest => hit (n :: rest)) = (secretPlaces secure v).contains := funext (hhit 0 v rfl)
    have ht : (fun rest => tell (n :: rest)) =
        fun rest => PropertyPath.renderFrom (PropertyPath.joinIndex here n) (v.pathTo rest) :=
      funext (htell 0 v rfl)
    have hvs := ofItems_eq here (n + 1) vs hit tell
      (fun i w hw => by rw [Nat.add_right_comm]; exact hhit (i + 1) w hw)
      (fun i w hw => by rw [Nat.add_right_comm]; exact htell (i + 1) w hw)
    rw [ofItems, ofValue_eq, hvs, Json.blotItems, hv, placesInItems, List.map_append, List.map_map]
    exact congrArg (fun f => (_, (secretPlaces secure v).map f ++ _)) ht.symm

theorem ofMembers_eq (here : String) (n : Nat) :
    (es : List (String × Json)) → (hit : Place → Bool) → (tell : Place → String) →
    (∀ i e, es[i]? = some e → ∀ rest, hit ((n + i) :: rest) = (secretPlaces secure e.2).contains rest) →
    (∀ i e, es[i]? = some e → ∀ rest, tell ((n + i) :: rest) =
      PropertyPath.renderFrom (PropertyPath.joinKey here e.1) (e.2.pathTo rest)) →
    ofMembers secure here es = (Json.blotMembers hit n es, (placesInMembers secure n es).map tell)
  | [], _, _, _, _ => rfl
  | (key, v) :: es, hit, tell, hhit, htell => by
    have hv : (fun rest => hit (n :: rest)) = (secretPlaces secure v).contains := funext (hhit 0 (key, v) rfl)
    have ht : (fun rest => tell (n :: rest)) =
        fun rest => PropertyPath.renderFrom (PropertyPath.joinKey here key) (v.pathTo rest) :=
      funext (htell 0 (key, v) rfl)
    have hes := ofMembers_eq here (n + 1) es hit tell
      (fun i e he => by rw [Nat.add_right_comm]; exact hhit (i + 1) e he)
      (fun i e he => by rw [Nat.add_right_comm]; exact htell (i + 1) e he)
    rw [ofMembers, ofValue_eq, hes, Json.blotMembers, hv, placesInMembers, List.map_append, List.map_map]
    exact congrArg (fun f => (_, (secretPlaces secure v).map f ++ _)) ht.symm

end

/-- Where secure values are sought, the topmost secrets are replaced and nothing else: every other value stays where it
was, under its key. The paths of what was replaced are told in the order of the document, and of the strings that are
left none but placeholders of secrets are secure. -/
theorem ofValue_topmost (secure : List Json) (here : String) (v : Json) :
    ∃ places : List Place, places.Pairwise (· < ·) ∧ (∀ place, place ∈ places ↔ Topmost secure v place) ∧
      ofValue secure here v = (v.blot places.contains,
        places.map fun place => PropertyPath.renderFrom here (v.pathTo place)) ∧
      ∀ place s, (ofValue secure here v).1.within? place = some (.str s) →
        Placeholder.isSecret s = true ∨ .str s ∉ secure := by
  refine ⟨secretPlaces secure v, pairwise_secretPlaces v, fun place => mem_secretPlaces, ofValue_eq here v, ?_⟩
  intro place s h
  rw [ofValue_eq] at h
  rcases Json.within?_blot_str h with rfl | ⟨hw, hnone⟩
  · exact Or.inl (by decide)
  · by_contra hs
    rw [not_or, Bool.not_eq_true, not_not] at hs
    -- a secure string that was there is in a topmost secret, and that was replaced
    obtain ⟨above, ha, htop⟩ := exists_topmost hw (.text hs.1 hs.2)
    have hhit := hnone above ha
    rw [List.contains_eq_mem, decide_eq_false_iff_not, mem_secretPlaces] at hhit
    exact hhit htop

example : ofValue [.str "s", .obj [("a", .str "s"), ("b", .null)]] "x"
    (.obj [("p", .arr [.str "s", .str "t", .str Placeholder.secret]), ("q", .obj [("b", .null), ("a", .str "s")])]) =
    (.obj [("p", .arr [.str Placeholder.secret, .str "t", .str Placeholder.secret]),
      ("q", .str Placeholder.secret)], ["x.p[0]", "x.q"]) := by rfl

end Redaction
end ResourceTemplate
