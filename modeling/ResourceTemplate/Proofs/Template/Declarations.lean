import ResourceTemplate.Proofs.Entries
import ResourceTemplate.Proofs.Template.Numbering

namespace ResourceTemplate.Template

/-- Whether a property holds of each declaration as it is read, and stays when the declaration takes on the type and the
name of another one or a name of its own. -/
structure Inherited (P : ResourceDeclaration → Prop) : Prop where
  read {pointer : String} {ordinal : Nat} {parent : Option Nat} {v : Json} {decl : ResourceDeclaration} :
    readResource pointer ordinal parent v = .ok decl → P decl
  qualify {child : ResourceDeclaration} (parent : ResourceDeclaration) : P child → P (qualify child parent)
  named {decl : ResourceDeclaration} (name : String) : P decl → P { decl with symbolicName := some name }

namespace Inherited

variable {P : ResourceDeclaration → Prop}

mutual

theorem flatten (hP : Inherited P) (pointer : String) (ordinal : Nat) (parent : Option ResourceDeclaration) :
    (v : Json) → {ds : List ResourceDeclaration} → Template.flatten pointer ordinal parent v = .ok ds →
    ∀ decl ∈ ds, P decl
  | .obj es, ds, h => by
    unfold Template.flatten at h
    obtain ⟨own, ho, h⟩ := bind_eq_ok.mp h
    obtain ⟨nested, hn, h⟩ := bind_eq_ok.mp h
    cases h
    refine List.forall_mem_cons.mpr ⟨?_, hP.flattenNested pointer (ordinal + 1) _ es es hn⟩
    cases parent with
    | none => exact hP.read ho
    | some p => exact hP.qualify p (hP.read ho)
  | .arr _, _, h => by cases h
  | .null, _, h => by cases h
  | .bool _, _, h => by cases h
  | .num _, _, h => by cases h
  | .str _, _, h => by cases h

theorem flattenNested (hP : Inherited P) (pointer : String) (ordinal : Nat) (own : ResourceDeclaration)
    (all : Entries Json) :
    (es : List (String × Json)) → {ds : List ResourceDeclaration} →
    Template.flattenNested pointer ordinal own all es = .ok ds → ∀ decl ∈ ds, P decl
  | [], _, h => by
    cases h
    simp
  | (k, v) :: rest, ds, h => by
    unfold Template.flattenNested at h
    split at h
    · cases v with
      | arr children => exact hP.flattenAll _ ordinal (some own) 0 children h
      | _ =>
        cases h
        simp
    · exact hP.flattenNested pointer ordinal own all rest h

theorem flattenAll (hP : Inherited P) (base : String) (ordinal : Nat) (parent : Option ResourceDeclaration) (i : Nat) :
    (vs : List Json) → {ds : List ResourceDeclaration} → Template.flattenAll base ordinal parent i vs = .ok ds →
    ∀ decl ∈ ds, P decl
  | [], _, h => by
    cases h
    simp
  | v :: vs, ds, h => by
    unfold Template.flattenAll at h
    obtain ⟨block, hb, h⟩ := bind_eq_ok.mp h
    obtain ⟨others, ho, h⟩ := bind_eq_ok.mp h
    cases h
    exact List.forall_mem_append.mpr
      ⟨hP.flatten _ ordinal parent v hb, hP.flattenAll base _ parent (i + 1) vs ho⟩

end

/-- An inherited property is one of all declarations of a template. -/
theorem ofJson (hP : Inherited P) {v : Json} {t : Template} (h : Template.ofJson v = .ok t) :
    ∀ decl ∈ t.resources, P decl := by
  have hkeyed {ordinal : Nat} {es : List (String × Json)} {ds : List ResourceDeclaration}
      (h : readKeyed ordinal es = .ok ds) : ∀ decl ∈ ds, P decl := by
    induction es generalizing ordinal ds with
    | nil =>
      cases h
      simp
    | cons e es ih =>
      unfold readKeyed at h
      obtain ⟨decl, hdecl, h⟩ := bind_eq_ok.mp h
      obtain ⟨others, ho, h⟩ := bind_eq_ok.mp h
      cases h
      exact List.forall_mem_cons.mpr ⟨hP.named e.1 (hP.read hdecl), ih ho⟩
  obtain ⟨-, es, -, ⟨-, hitems⟩ | ⟨members, -, -, hmembers⟩⟩ := ofJson_reads h
  · exact hP.flattenAll _ _ _ _ _ hitems
  · exact hkeyed hmembers

end Inherited

theorem readResource_body {pointer : String} {ordinal : Nat} {parent : Option Nat} {v : Json}
    {decl : ResourceDeclaration} (h : readResource pointer ordinal parent v = .ok decl) :
    ∃ es : Entries Json, v = .obj es ∧ decl.body = es.filter fun e => !isDeclarationKey e.1 := by
  cases v with
  | obj es =>
    refine ⟨es, rfl, ?_⟩
    unfold readResource at h
    simp only [objectAt, bind, Except.bind, pure, Except.pure] at h
    repeat' split at h
    all_goals cases h
    all_goals rfl
  | _ => cases h

def Unsteered (decl : ResourceDeclaration) : Prop := ∀ key ∈ decl.body.keys, isDeclarationKey key = false

theorem inherited_unsteered : Inherited Unsteered where
  read hr key hk := by
    obtain ⟨es, -, hbody⟩ := readResource_body hr
    rw [hbody] at hk
    obtain ⟨e, he, rfl⟩ := List.mem_map.mp hk
    simpa using (List.mem_filter.mp he).2
  qualify {child} parent hp := by
    have hinsert {es : Entries Json} (hes : ∀ key ∈ es.keys, isDeclarationKey key = false) {name : String}
        (hn : isDeclarationKey name = false) (v : Json) :
        ∀ key ∈ (es.insert name v).keys, isDeclarationKey key = false := by
      intro key hk
      rcases Entries.mem_keys_insert hk with rfl | hk
      · exact hn
      · exact hes key hk
    have htype (v : Json) := hinsert hp (show isDeclarationKey "type" = false by decide) v
    unfold Template.qualify
    split
    · split
      · exact hp
      · dsimp only
        split
        · exact hinsert (htype _) (by decide) _
        · exact htype _
    · exact hp
  named _ hp := hp

end ResourceTemplate.Template
