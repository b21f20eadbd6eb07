import ResourceTemplate.Expander.Plan
import ResourceTemplate.Proofs.Entries
import ResourceTemplate.Proofs.Outcome

namespace ResourceTemplate

namespace DeploymentSymbol

theorem bind_kind {s t : DeploymentSymbol} {id : String} (h : s.bind id = .ok t) :
    t.kind = s.kind := by
  cases s with
  | array name ids =>
    cases h
    rfl
  | object name bound =>
    cases bound with
    | none =>
      cases h
      rfl
    | some _ => cases h

theorem bind_ids {s t : DeploymentSymbol} {id : String} (h : s.bind id = .ok t) :
    t.ids = s.ids ++ [id] := by
  cases s with
  | array name ids =>
    cases h
    rfl
  | object name bound =>
    cases bound with
    | none =>
      cases h
      rfl
    | some _ => cases h

end DeploymentSymbol

namespace SymbolTable

theorem find?_put (t : SymbolTable) (name other : String) (s : DeploymentSymbol) :
    (t.put name s).find? other = if Name.same other name then some s else t.find? other := by
  unfold find? put Name.same
  rw [Entries.get?_insert]
  by_cases h : Name.fold other = Name.fold name <;> simp [h]

@[simp] theorem find?_put_self (t : SymbolTable) (name : String) (s : DeploymentSymbol) :
    (t.put name s).find? name = some s := by simp [find?_put]

theorem find?_congr (t : SymbolTable) {a b : String} (h : Name.same a b) : t.find? a = t.find? b := by
  unfold find?
  rw [Name.same_iff.mp h]

theorem configure_ok {t u : SymbolTable} {name id : String} (h : t.configure name id = .ok u) :
    ∃ s s', t.find? name = some s ∧ s.bind id = .ok s' ∧ u = t.put name s' := by
  unfold configure at h
  cases hs : t.find? name with
  | none =>
    rw [hs] at h
    cases h
  | some s =>
    rw [hs] at h
    cases hb : s.bind id with
    | error fault =>
      simp only [hb, Except.map] at h
      cases h
    | ok s' =>
      simp only [hb, Except.map] at h
      cases h
      exact ⟨s, s', rfl, hb, rfl⟩

def KeepsKinds (t u : SymbolTable) : Prop :=
  ∀ name s, t.find? name = some s → ∃ s', u.find? name = some s' ∧ s'.kind = s.kind

theorem KeepsKinds.refl (t : SymbolTable) : KeepsKinds t t := fun _ s h => ⟨s, h, rfl⟩

theorem KeepsKinds.trans {t u v : SymbolTable} (h : KeepsKinds t u) (k : KeepsKinds u v) :
    KeepsKinds t v := by
  intro name s hs
  obtain ⟨s', hs', hk⟩ := h name s hs
  obtain ⟨s'', hs'', hk'⟩ := k name s' hs'
  exact ⟨s'', hs'', hk'.trans hk⟩

theorem keepsKinds_put {t : SymbolTable} {name : String} {s' : DeploymentSymbol}
    (h : ∀ s, t.find? name = some s → s'.kind = s.kind) : KeepsKinds t (t.put name s') := by
  intro other s hs
  rw [find?_put]
  by_cases hn : Name.same other name
  · rw [if_pos hn]
    exact ⟨s', rfl, h s (find?_congr t hn ▸ hs)⟩
  · rw [if_neg hn]
    exact ⟨s, hs, rfl⟩

theorem configure_keepsKinds {t u : SymbolTable} {name id : String}
    (h : t.configure name id = .ok u) : KeepsKinds t u := by
  obtain ⟨s, s', hs, hb, rfl⟩ := configure_ok h
  apply keepsKinds_put
  intro r hr
  rw [hs] at hr
  cases hr
  exact s.bind_kind hb

def Unbound (t : SymbolTable) : Prop := ∀ name s, t.find? name = some s → s.ids = []

theorem Unbound.put {t : SymbolTable} (h : Unbound t) {name : String} {s' : DeploymentSymbol}
    (hs : s'.ids = []) : Unbound (t.put name s') := by
  intro other s ho
  rw [find?_put] at ho
  split at ho
  · cases ho
    exact hs
  · exact h other s ho

/-- A new symbol changes no kind and is bound to nothing. -/
theorem put_new {t : SymbolTable} {name : String} {s' : DeploymentSymbol}
    (hn : t.find? name = none) (hs : s'.ids = []) :
    KeepsKinds t (t.put name s') ∧ (Unbound t → Unbound (t.put name s')) ∧
      ∃ s, (t.put name s').find? name = some s ∧ s.kind = s'.kind :=
  ⟨keepsKinds_put (by simp [hn]), fun ht => ht.put hs, s', find?_put_self .., rfl⟩

theorem declareArray_ok {t u : SymbolTable} {name : String} (h : t.declareArray name = .ok u) :
    KeepsKinds t u ∧ (Unbound t → Unbound u) ∧ ∃ s, u.find? name = some s ∧ s.kind = .array := by
  unfold declareArray at h
  cases hs : t.find? name with
  | none =>
    rw [hs] at h
    cases h
    exact put_new hs rfl
  | some s =>
    rw [hs] at h
    dsimp only at h
    split at h
    · cases h
      exact ⟨.refl t, id, s, hs, by assumption⟩
    · cases h

theorem declareObject_ok {t u : SymbolTable} {name : String} (h : t.declareObject name none = .ok u) :
    KeepsKinds t u ∧ (Unbound t → Unbound u) ∧ ∃ s, u.find? name = some s ∧ s.kind = .object := by
  unfold declareObject at h
  cases hs : t.find? name with
  | none =>
    rw [hs] at h
    cases h
    exact put_new hs rfl
  | some s =>
    rw [hs] at h
    dsimp only at h
    split at h
    · cases h
      exact ⟨.refl t, id, s, hs, by assumption⟩
    · cases h

def Declares (t : SymbolTable) (decl : ResourceDeclaration) : Prop :=
  ∀ symbol, decl.symbol? = some symbol → ∃ s, t.find? symbol = some s ∧
    s.kind = if decl.copy.isSome then .array else .object

theorem Declares.keep {t u : SymbolTable} {decl : ResourceDeclaration} (h : Declares t decl)
    (k : KeepsKinds t u) : Declares u decl := by
  intro symbol hs
  obtain ⟨s, hs, hk⟩ := h symbol hs
  obtain ⟨s', hs', hk'⟩ := k symbol s hs
  exact ⟨s', hs', hk'.trans hk⟩

theorem declareSymbol_ok {t u : SymbolTable} {decl : ResourceDeclaration}
    (h : Expander.declareSymbol t decl = .ok u) :
    KeepsKinds t u ∧ (Unbound t → Unbound u) ∧ Declares u decl := by
  unfold Expander.declareSymbol at h
  unfold Declares
  cases hs : decl.symbol? with
  | none =>
    simp only [hs] at h
    cases h
    exact ⟨.refl t, id, by simp⟩
  | some symbol =>
    cases hc : decl.copy with
    | none =>
      simp only [hs, hc] at h
      obtain ⟨hk, hu, s, hf, ho⟩ := declareObject_ok h
      exact ⟨hk, hu, by simp [hf, ho]⟩
    | some copy =>
      simp only [hs, hc] at h
      obtain ⟨hk, hu, s, hf, ho⟩ := declareArray_ok h
      exact ⟨hk, hu, by simp [hf, ho]⟩

/-- Declaring the symbols of declarations binds none and gives each its kind. -/
theorem declareAll_ok {t u : SymbolTable} {ds : List ResourceDeclaration}
    (h : ds.foldlM Expander.declareSymbol t = .ok u) :
    KeepsKinds t u ∧ (Unbound t → Unbound u) ∧ ∀ decl ∈ ds, Declares u decl := by
  induction ds generalizing t with
  | nil =>
    cases h
    exact ⟨.refl _, id, by simp⟩
  | cons d ds ih =>
    rw [List.foldlM_cons] at h
    obtain ⟨v, hv, h⟩ := bind_eq_ok.mp h
    obtain ⟨hk, hu, hd⟩ := declareSymbol_ok hv
    obtain ⟨hks, hus, hds⟩ := ih h
    refine ⟨hk.trans hks, hus ∘ hu, ?_⟩
    intro decl hm
    rcases List.mem_cons.mp hm with rfl | hm
    · exact hd.keep hks
    · exact hds decl hm

end SymbolTable
end ResourceTemplate
