import ResourceTemplate.Proofs.Outcome
import ResourceTemplate.Template.Reader

namespace ResourceTemplate.Template

/-- Declarations that are numbered in turn from a number on, each after the one it stands in. -/
structure NumberedFrom (n : Nat) (ds : List ResourceDeclaration) : Prop where
  ordinals : ds.map ResourceDeclaration.ordinal = List.range' n ds.length
  parents : ∀ d ∈ ds, ∀ i, d.parent = some i → i < d.ordinal

namespace NumberedFrom

theorem nil (n : Nat) : NumberedFrom n [] := ⟨rfl, by simp⟩

theorem cons {n : Nat} {d : ResourceDeclaration} {ds : List ResourceDeclaration}
    (hd : d.ordinal = n) (hp : ∀ i, d.parent = some i → i < n) (h : NumberedFrom (n + 1) ds) :
    NumberedFrom n (d :: ds) where
  ordinals := by rw [List.map_cons, List.length_cons, List.range'_succ, hd, h.ordinals]
  parents := List.forall_mem_cons.mpr ⟨hd ▸ hp, h.parents⟩

theorem append {n : Nat} {ds es : List ResourceDeclaration} (h : NumberedFrom n ds)
    (k : NumberedFrom (n + ds.length) es) : NumberedFrom n (ds ++ es) where
  ordinals := by
    rw [List.map_append, List.length_append, h.ordinals, k.ordinals, List.range'_append_1]
  parents := List.forall_mem_append.mpr ⟨h.parents, k.parents⟩

theorem ordinal {ds : List ResourceDeclaration} (h : NumberedFrom 0 ds) {i : Nat}
    {d : ResourceDeclaration} (hd : ds[i]? = some d) : d.ordinal = i := by
  have hi : i < ds.length := (List.getElem?_eq_some_iff.mp hd).1
  have hm : (ds.map ResourceDeclaration.ordinal)[i]? = some d.ordinal := by simp [hd]
  rw [h.ordinals, List.getElem?_range' hi] at hm
  simpa using hm.symm

theorem getElem? {ds : List ResourceDeclaration} (h : NumberedFrom 0 ds)
    {d : ResourceDeclaration} (hd : d ∈ ds) : ds[d.ordinal]? = some d := by
  obtain ⟨i, hi⟩ := List.mem_iff_getElem?.mp hd
  rw [h.ordinal hi, hi]

theorem lt_length {ds : List ResourceDeclaration} (h : NumberedFrom 0 ds)
    {d : ResourceDeclaration} (hd : d ∈ ds) : d.ordinal < ds.length :=
  (List.getElem?_eq_some_iff.mp (h.getElem? hd)).1

end NumberedFrom

theorem readResource_ok {pointer : String} {ordinal : Nat} {parent : Option Nat} {v : Json}
    {d : ResourceDeclaration} (h : readResource pointer ordinal parent v = .ok d) :
    d.ordinal = ordinal ∧ d.parent = parent := by
  unfold readResource at h
  simp only [bind, Except.bind, pure, Except.pure] at h
  repeat' split at h
  all_goals cases h
  all_goals exact ⟨rfl, rfl⟩

theorem qualify_keeps (child parent : ResourceDeclaration) :
    (qualify child parent).ordinal = child.ordinal ∧
      (qualify child parent).parent = child.parent := by
  unfold qualify
  split
  · split
    · exact ⟨rfl, rfl⟩
    · dsimp only
      split <;> exact ⟨rfl, rfl⟩
  · exact ⟨rfl, rfl⟩

mutual

/-- The declarations that a value stands for are numbered from its number on. -/
theorem flatten_numbered (pointer : String) (ordinal : Nat) (parent : Option ResourceDeclaration)
    (hp : ∀ p, parent = some p → p.ordinal < ordinal) :
    (v : Json) → {ds : List ResourceDeclaration} → flatten pointer ordinal parent v = .ok ds →
    NumberedFrom ordinal ds
  | .obj es, ds, h => by
    unfold flatten at h
    obtain ⟨own, ho, h⟩ := bind_eq_ok.mp h
    obtain ⟨nested, hn, h⟩ := bind_eq_ok.mp h
    cases h
    obtain ⟨hown, hparent⟩ := readResource_ok ho
    -- what stands in this declaration comes after it, so its number bounds their parents
    cases parent with
    | none =>
      exact .cons hown (by simp [hparent])
        (flattenNested_numbered pointer (ordinal + 1) own (by simp [hown]) es es hn)
    | some p =>
      obtain ⟨hq, hqp⟩ := qualify_keeps own p
      refine .cons (hq.trans hown) ?_
        (flattenNested_numbered pointer (ordinal + 1) _ (by simp [hq, hown]) es es hn)
      intro i hi
      rw [hqp, hparent] at hi
      cases hi
      exact hp p rfl
  | .arr _, _, h => by cases h
  | .null, _, h => by cases h
  | .bool _, _, h => by cases h
  | .num _, _, h => by cases h
  | .str _, _, h => by cases h

theorem flattenNested_numbered (pointer : String) (ordinal : Nat) (own : ResourceDeclaration)
    (ho : own.ordinal < ordinal) (all : Entries Json) :
    (es : List (String × Json)) → {ds : List ResourceDeclaration} →
    flattenNested pointer ordinal own all es = .ok ds → NumberedFrom ordinal ds
  | [], _, h => by
    cases h
    exact .nil _
  | (k, v) :: rest, ds, h => by
    unfold flattenNested at h
    split at h
    · cases v with
      | arr children =>
        refine flattenAll_numbered _ ordinal (some own) ?_ 0 children h
        intro p hp
        cases hp
        exact ho
      | _ =>
        cases h
        exact .nil _
    · exact flattenNested_numbered pointer ordinal own ho all rest h

theorem flattenAll_numbered (base : String) (ordinal : Nat) (parent : Option ResourceDeclaration)
    (hp : ∀ p, parent = some p → p.ordinal < ordinal) (i : Nat) :
    (vs : List Json) → {ds : List ResourceDeclaration} →
    flattenAll base ordinal parent i vs = .ok ds → NumberedFrom ordinal ds
  | [], _, h => by
    cases h
    exact .nil _
  | v :: vs, ds, h => by
    unfold flattenAll at h
    obtain ⟨block, hb, h⟩ := bind_eq_ok.mp h
    obtain ⟨others, ho, h⟩ := bind_eq_ok.mp h
    cases h
    refine (flatten_numbered _ ordinal parent hp v hb).append
      (flattenAll_numbered base _ parent ?_ (i + 1) vs ho)
    exact fun p h => Nat.lt_add_right _ (hp p h)

end

theorem readKeyed_numbered {ordinal : Nat} {es : List (String × Json)}
    {ds : List ResourceDeclaration} (h : readKeyed ordinal es = .ok ds) :
    NumberedFrom ordinal ds := by
  induction es generalizing ordinal ds with
  | nil =>
    cases h
    exact .nil _
  | cons e es ih =>
    unfold readKeyed at h
    obtain ⟨d, hd, h⟩ := bind_eq_ok.mp h
    obtain ⟨others, ho, h⟩ := bind_eq_ok.mp h
    cases h
    obtain ⟨hn, hp⟩ := readResource_ok hd
    exact .cons hn (by simp [hp]) (ih ho)

def arrayItems : Option Json → List Json
  | some (.arr items) => items
  | _ => []

/-- The declarations of a template are those of a list, which may be missing, or keyed. -/
theorem ofJson_reads {v : Json} {t : Template} (h : ofJson v = .ok t) : t.raw = v ∧ ∃ es, v = .obj es ∧
    (t.symbolic = false ∧
        flattenAll "/resources/" 0 none 0 (arrayItems (field? es "resources")) = .ok t.resources ∨
      ∃ members, field? es "resources" = some (.obj members) ∧ t.symbolic = true ∧
        readKeyed 0 members = .ok t.resources) := by
  unfold ofJson at h
  obtain ⟨es, hv, h⟩ := bind_eq_ok.mp h
  obtain ⟨parameters, -, h⟩ := bind_eq_ok.mp h
  obtain ⟨definitions, -, h⟩ := bind_eq_ok.mp h
  obtain ⟨vars, -, h⟩ := bind_eq_ok.mp h
  extract_lets join at h
  have hj : ∀ fs, join fs = .ok t → t.raw = v ∧ (t.symbolic = false ∧
        flattenAll "/resources/" 0 none 0 (arrayItems (field? es "resources")) = .ok t.resources ∨
      ∃ members, field? es "resources" = some (.obj members) ∧ t.symbolic = true ∧
        readKeyed 0 members = .ok t.resources) := by
    intro fs hf
    unfold join at hf
    extract_lets last at hf
    have hl : ∀ ds symbolic, last (ds, symbolic) = .ok t →
        ds = t.resources ∧ symbolic = t.symbolic ∧ t.raw = v := by
      intro ds symbolic hx
      obtain ⟨_, -, hx⟩ := bind_eq_ok.mp hx
      obtain ⟨_, -, hx⟩ := bind_eq_ok.mp hx
      cases hx
      exact ⟨rfl, rfl, rfl⟩
    split at hf
    · rename_i hr
      obtain ⟨hds, hsymbolic, hraw⟩ := hl [] false hf
      exact ⟨hraw, .inl ⟨hsymbolic.symm, by rw [hr, ← hds]; rfl⟩⟩
    · rename_i hr
      obtain ⟨hds, hsymbolic, hraw⟩ := hl [] false hf
      exact ⟨hraw, .inl ⟨hsymbolic.symm, by rw [hr, ← hds]; rfl⟩⟩
    · rename_i items hr
      obtain ⟨ds, hd, hf⟩ := bind_eq_ok.mp hf
      obtain ⟨hds, hsymbolic, hraw⟩ := hl ds false hf
      exact ⟨hraw, .inl ⟨hsymbolic.symm, by rw [hr, ← hds]; exact hd⟩⟩
    · rename_i members hr
      obtain ⟨ds, hd, hf⟩ := bind_eq_ok.mp hf
      obtain ⟨hds, hsymbolic, hraw⟩ := hl ds true hf
      exact ⟨hraw, .inr ⟨members, hr, hsymbolic.symm, hds ▸ hd⟩⟩
    · cases hf
  have hread : t.raw = v ∧ (t.symbolic = false ∧
        flattenAll "/resources/" 0 none 0 (arrayItems (field? es "resources")) = .ok t.resources ∨
      ∃ members, field? es "resources" = some (.obj members) ∧ t.symbolic = true ∧
        readKeyed 0 members = .ok t.resources) := by
    split at h
    all_goals
      obtain ⟨functions, -, h⟩ := bind_eq_ok.mp h
      exact hj functions h
  exact ⟨hread.1, es, by cases v <;> cases hv; rfl, hread.2⟩

/-- The declarations of a template are numbered by their positions. -/
theorem ofJson_numbered {v : Json} {t : Template} (h : ofJson v = .ok t) :
    NumberedFrom 0 t.resources := by
  obtain ⟨-, es, -, ⟨-, hitems⟩ | ⟨members, -, -, hmembers⟩⟩ := ofJson_reads h
  · exact flattenAll_numbered _ _ _ (by simp) _ _ hitems
  · exact readKeyed_numbered hmembers

end ResourceTemplate.Template
