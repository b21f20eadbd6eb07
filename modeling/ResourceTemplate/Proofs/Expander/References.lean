import ResourceTemplate.Proofs.Expander.Loop
import ResourceTemplate.Proofs.Symbols

namespace ResourceTemplate

@[simp] theorem ResourceId.same_self (id : String) : ResourceId.same id id = true :=
  Name.same_self _

namespace Ledger

structure Grounded (l : Ledger) : Prop where
  declared : ∀ decl ∈ l.declarations, l.symbols.Declares decl
  bound : ∀ name s, l.symbols.find? name = some s → ∀ id ∈ s.ids,
    (∃ r ∈ l.allResources, r.identity.id = id) ∨ (s.kind = .array ∧ id ∈ l.skipped)

theorem isSkipped_of_mem {l : Ledger} {id : String} (h : id ∈ l.skipped) : l.isSkipped id = true :=
  List.any_eq_true.mpr ⟨id, h, ResourceId.same_self id⟩

/-- What an id of a resource leads to: a resource of that id, unless an instance of that id is
skipped. -/
theorem findById_of_mem {l : Ledger} {r : ResourceValue} (h : r ∈ l.allResources) :
    (l.isSkipped r.identity.id = true ∧ l.findById r.identity.id = .skipped) ∨
      (l.isSkipped r.identity.id = false ∧ ∃ r' ∈ l.allResources,
        ResourceId.same r'.identity.id r.identity.id ∧ l.findById r.identity.id = .found r') := by
  unfold findById
  cases hs : l.isSkipped r.identity.id with
  | true => exact .inl ⟨rfl, by simp⟩
  | false =>
    refine .inr ⟨rfl, ?_⟩
    cases hf : l.allResources.find? fun r' => ResourceId.same r'.identity.id r.identity.id with
    | none =>
      rw [List.find?_eq_none] at hf
      exact absurd (ResourceId.same_self _) (hf r h)
    | some r' =>
      exact ⟨r', List.mem_of_find?_eq_some hf, by simpa using List.find?_some hf, by simp⟩

/-- The symbol that a target addresses, of `symbol[i]` as of `symbol`. -/
def addressed (target : String) : String := ((splitIndexed? target).map Prod.fst).getD target

theorem lookup_eq (t : SymbolTable) (target : String) :
    t.lookup target = t.getId (addressed target) ((splitIndexed? target).map Prod.snd) := by
  unfold SymbolTable.lookup addressed
  cases splitIndexed? target <;> rfl

theorem find_eq (l : Ledger) (target : String) :
    l.find target =
      if l.symbols.contains (addressed target) then
        match l.symbols.lookup target with
        | .error fault => .error fault
        | .ok (some id) => .ok (l.findById id)
        | .ok none => .ok (l.findingOfSymbol (addressed target))
      else .ok (l.findByIdOrName target) := by
  unfold find addressed
  cases splitIndexed? target <;> rfl

/-- A target that addresses an object symbol is looked up by the id that the symbol is bound to. -/
theorem find_of_object {l : Ledger} {target name id : String}
    (h : l.symbols.find? (addressed target) = some (.object name (some id))) :
    l.find target = .ok (l.findById id) := by
  rw [find_eq, lookup_eq, SymbolTable.contains, SymbolTable.getId]
  simp [h, DeploymentSymbol.getId]

end Ledger

theorem Binds.keepsKinds {decl : ResourceDeclaration} {id : Option String} {t u : SymbolTable}
    (h : Binds decl id t u) : t.KeepsKinds u := by
  unfold Binds at h
  split at h
  · exact SymbolTable.configure_keepsKinds h
  · rw [h]
    exact .refl t

/-- What a symbol is bound to after a declaration binds an id: what it was bound to, or that id. -/
theorem Binds.ids {decl : ResourceDeclaration} {bound : Option String} {t u : SymbolTable}
    (h : Binds decl bound t u) (hd : t.Declares decl) {name : String} {s : DeploymentSymbol}
    (hs : u.find? name = some s) {id : String} (hi : id ∈ s.ids) :
    (∃ s', t.find? name = some s' ∧ id ∈ s'.ids ∧ s.kind = s'.kind) ∨
      (bound = some id ∧ s.kind = if decl.copy.isSome then .array else .object) := by
  unfold Binds at h
  split at h
  · rename_i symbol id' hn
    obtain ⟨s₁, s₂, hf, hb, rfl⟩ := SymbolTable.configure_ok h
    rw [SymbolTable.find?_put] at hs
    by_cases hsame : Name.same name symbol
    · rw [if_pos hsame] at hs
      cases hs
      rw [DeploymentSymbol.bind_ids hb] at hi
      rcases List.mem_append.mp hi with hi | hi
      · exact .inl ⟨s₁, (SymbolTable.find?_congr t hsame).trans hf, hi, s₁.bind_kind hb⟩
      · obtain ⟨s₃, hf', hk⟩ := hd symbol hn
        rw [hf] at hf'
        cases hf'
        rw [List.mem_singleton.mp hi]
        exact .inr ⟨rfl, (s₁.bind_kind hb).trans hk⟩
    · rw [if_neg hsame] at hs
      exact .inl ⟨s, hs, hi, rfl⟩
  · subst h
    exact .inl ⟨s, hs, hi, rfl⟩

namespace Progress

theorem Entered.mem_all {decl : ResourceDeclaration} {i : Instance} {p q : Progress}
    (h : Entered decl i p q) (r : ResourceValue) :
    r ∈ q.ledger.allResources ↔
      r ∈ p.ledger.allResources ∨ r ∈ i.resources ∨ r ∈ i.existingResources := by
  simp only [Ledger.allResources, h.resources, h.existing, List.mem_append]
  tauto

/-- An instance is bound to the id of a resource that is entered with it, or of a loop to an id that is
skipped. -/
theorem Entered.bound {decl : ResourceDeclaration} {i : Instance} {p q : Progress}
    (h : Entered decl i p q) {id : String} (hb : i.boundId? decl.copy.isSome = some id) :
    (∃ r ∈ q.ledger.allResources, r.identity.id = id) ∨
      (decl.copy.isSome ∧ id ∈ q.ledger.skipped) := by
  cases i with
  | emitted r nested =>
    cases hb
    exact .inl ⟨r, (h.mem_all r).mpr (.inr (.inl (by simp))), rfl⟩
  | existing r =>
    cases hb
    exact .inl ⟨r, (h.mem_all r).mpr (.inr (.inr (by simp))), rfl⟩
  | skipped bound =>
    simp only [Instance.boundId?] at hb
    split at hb
    · rename_i hc
      subst hb
      exact .inr ⟨hc, by simp [h.skipped]⟩
    · cases hb

theorem Entered.grounded {decl : ResourceDeclaration} {i : Instance} {p q : Progress}
    (h : Entered decl i p q) (hd : decl ∈ p.ledger.declarations) (hp : p.ledger.Grounded) :
    q.ledger.Grounded where
  declared decl' hd' := by
    rw [h.declarations] at hd'
    exact (hp.declared decl' hd').keep h.symbols.keepsKinds
  bound name s hs id hi := by
    -- the id was bound before, or this instance binds it
    rcases h.symbols.ids (hp.declared decl hd) hs hi with ⟨s', hs', hi', hk⟩ | ⟨hb, hk⟩
    · rcases hp.bound name s' hs' id hi' with ⟨r, hr, hid⟩ | ⟨ha, hm⟩
      · exact .inl ⟨r, (h.mem_all r).mpr (.inl hr), hid⟩
      · exact .inr ⟨hk.trans ha, by simp [h.skipped, hm]⟩
    · rcases h.bound hb with hr | ⟨hc, hm⟩
      · exact .inl hr
      · exact .inr ⟨by simp [hk, hc], hm⟩

theorem commit_grounded {decl : ResourceDeclaration} {instances : List Instance} {p q : Progress}
    (h : commit decl instances p = .ok q) (hd : decl ∈ p.ledger.declarations)
    (hp : p.ledger.Grounded) : q.ledger.Grounded := by
  unfold commit at h
  obtain ⟨m, hf, h⟩ := bind_eq_ok.mp h
  cases h
  have hm : decl ∈ m.ledger.declarations ∧ m.ledger.Grounded :=
    foldlM_keeps (P := fun p => decl ∈ p.ledger.declarations ∧ p.ledger.Grounded)
      (fun _ _ _ _ hb h => ⟨(enter_entered h).declarations ▸ hb.1,
        (enter_entered h).grounded hb.1 hb.2⟩) ⟨hd, hp⟩ hf
  exact ⟨hm.2.declared, hm.2.bound⟩

end Progress

namespace Expander

variable {x : Expander} {nested : Nested} {d : Deployment} {plan : Plan} {p₀ : Progress}

theorem Unsettled.grounded (h : Unsettled d p₀) : p₀.ledger.Grounded := by
  obtain ⟨-, hu, hd⟩ := SymbolTable.declareAll_ok h.symbols
  have ht : SymbolTable.Unbound {} := by
    intro name s hs
    cases hs
  refine ⟨?_, ?_⟩
  · rw [h.declarations]
    exact hd
  · intro name s hs id hi
    rw [hu ht name s hs] at hi
    cases hi

theorem Turn.grounded {decl : ResourceDeclaration} {p q : Progress}
    {r : Except ExpandError (Option Settlement)} (h : Turn x nested d plan decl p r q)
    (hd : decl ∈ p.ledger.declarations) (hp : p.ledger.Grounded) : q.ledger.Grounded := by
  cases h with
  | commits instances s q hr ha hc => exact Progress.commit_grounded hc hd hp
  | _ => exact ⟨hp.declared, hp.bound⟩

theorem Reached.grounded {h : History} {p : Progress} (h₀ : Unsettled d p₀)
    (hr : Reached x nested d plan p₀ h p) : p.ledger.Grounded := by
  induction hr with
  | start => exact h₀.grounded
  | turn hp hd hs ht ih =>
    have hm := (hp.recorded h₀).declarations
    exact ht.grounded (hm ▸ hd) ih
  | ends hp hd hs ht ih =>
    have hm := (hp.recorded h₀).declarations
    exact ht.grounded (hm ▸ hd) ih

theorem outcome_resolve_found {l : Ledger} {target : String} {r : ResourceValue}
    (h : l.find target = .ok (.found r)) (view : ResourceValue → Json) (s : Scope) :
    outcome (d.resolve l view target) s = (.ok (view r), s) := by
  unfold Deployment.resolve
  rw [h]
  rfl

theorem outcome_resolve_skipped {l : Ledger} {target : String}
    (h : l.find target = .ok .skipped) (view : ResourceValue → Json) (s : Scope) :
    outcome (d.resolve l view target) s = (.error (.conditionFalse target), s) := by
  unfold Deployment.resolve
  rw [h]
  rfl

/-- In every progress that an expansion reaches, a bound object symbol is bound to the id of a resource
that is emitted or exists. A reference to it gives the projection of a resource of that id, unless an
instance of that id is skipped: then it fails, as if the resource were the skipped one. -/
theorem reference_of_bound_object {v : Json} {s₀ : Scope} {h : History} {p : Progress}
    (ht : Template.ofJson v = .ok d.template)
    (h₀ : outcome (prepare d) (.start s₀ d.template.resources) = (.ok plan, p₀))
    (hr : Reached x nested d plan p₀ h p) {target name id : String}
    (hb : p.ledger.symbols.find? (Ledger.addressed target) = some (.object name (some id))) :
    ∃ r ∈ p.ledger.allResources, ResourceId.same r.identity.id id ∧ ∀ s,
      if p.ledger.isSkipped id then
        (∀ full, outcome ((d.host p.ledger).reference target full) s =
          (.error (.conditionFalse target), s)) ∧
        outcome ((d.host p.ledger).resourceInfo target) s = (.error (.conditionFalse target), s)
      else
        (∀ full, outcome ((d.host p.ledger).reference target full) s =
          (.ok (if full then r.toJson else r.properties), s)) ∧
        outcome ((d.host p.ledger).resourceInfo target) s = (.ok r.info, s) := by
  obtain ⟨hu, -⟩ := prepare_ok (Template.ofJson_numbered ht) h₀
  have hg := hr.grounded hu
  have hf := Ledger.find_of_object hb
  have hid : id ∈ (DeploymentSymbol.object name (some id)).ids := List.mem_singleton.mpr rfl
  obtain ⟨r, hm, rfl⟩ : ∃ r ∈ p.ledger.allResources, r.identity.id = id := by
    rcases hg.bound _ _ hb id hid with hr | ⟨hk, -⟩
    · exact hr
    · cases hk
  rcases Ledger.findById_of_mem hm with ⟨hs, hi⟩ | ⟨hs, r', hm', hsame, hi⟩
  · rw [hi] at hf
    refine ⟨r, hm, ResourceId.same_self _, ?_⟩
    intro s
    rw [if_pos hs]
    exact ⟨fun full => outcome_resolve_skipped hf _ s, outcome_resolve_skipped hf _ s⟩
  · rw [hi] at hf
    refine ⟨r', hm', hsame, ?_⟩
    intro s
    rw [if_neg (by simp [hs])]
    refine ⟨?_, outcome_resolve_found hf _ s⟩
    intro full
    cases full
    · exact outcome_resolve_found hf _ s
    · exact outcome_resolve_found hf _ s

/-- A resource under two declarations: one that it exists, one that creates it on a condition. -/
def existingOrNew (condition : Bool) : Json := .obj
  [("languageVersion", .str "2.0"),
   ("resources", .obj
    [("old", .obj [("existing", .bool true), ("type", .str "A/b"), ("name", .str "x")]),
     ("new", .obj [("condition", .bool condition), ("type", .str "A/b"), ("name", .str "x")])])]

theorem addressed_old : Ledger.addressed "old" = "old" := by decide +kernel

theorem reference_of_bound_object_created :
    ∃ d plan p₀ h p id, Template.ofJson (existingOrNew true) = .ok d.template ∧
      outcome (prepare d) (.start {} d.template.resources) = (.ok plan, p₀) ∧
      Reached small small.refuseNested d plan p₀ h p ∧
      p.ledger.symbols.find? "old" = some (.object "old" (some id)) ∧
      ∃ r ∈ p.ledger.allResources, ResourceId.same r.identity.id id ∧
        ∀ s, outcome ((d.host p.ledger).resourceInfo "old") s = (.ok r.info, s) := by
  have hc : prepares small.options (existingOrNew true) fun d plan p₀ =>
      let l := (outcome (small.settleAll small.refuseNested d plan) p₀).2.ledger
      l.symbols.find? "old" =
          some (.object "old" (some "/subscriptions/s/resourceGroups/g/providers/A/b/x")) &&
        !l.isSkipped "/subscriptions/s/resourceGroups/g/providers/A/b/x" := by
    decide +kernel
  obtain ⟨d, plan, p₀, ht, h₀, hc⟩ := exists_of_prepares hc
  obtain ⟨h, hr⟩ := settleAll_reached small small.refuseNested ht h₀
  simp only [Bool.and_eq_true, decide_eq_true_eq, Bool.not_eq_true'] at hc
  obtain ⟨r, hm, hs, hv⟩ := reference_of_bound_object ht h₀ hr (addressed_old.symm ▸ hc.1)
  refine ⟨d, plan, p₀, h, _, _, ht, h₀, hr, hc.1, r, hm, hs, ?_⟩
  intro s
  have hv := hv s
  rw [if_neg (by simp [hc.2])] at hv
  exact hv.2

/-- Of the two declarations the one that exists cannot be referred to when the other is skipped. -/
theorem existing_hidden_by_skipped :
    ∃ d plan p₀ h p id, Template.ofJson (existingOrNew false) = .ok d.template ∧
      outcome (prepare d) (.start {} d.template.resources) = (.ok plan, p₀) ∧
      Reached small small.refuseNested d plan p₀ h p ∧
      p.ledger.symbols.find? "old" = some (.object "old" (some id)) ∧
      (∃ r ∈ p.ledger.existing, r.identity.id = id) ∧
      ∀ s, outcome ((d.host p.ledger).resourceInfo "old") s = (.error (.conditionFalse "old"), s) ∧
        ∀ full, outcome ((d.host p.ledger).reference "old" full) s =
          (.error (.conditionFalse "old"), s) := by
  have hc : prepares small.options (existingOrNew false) fun d plan p₀ =>
      let l := (outcome (small.settleAll small.refuseNested d plan) p₀).2.ledger
      l.symbols.find? "old" =
          some (.object "old" (some "/subscriptions/s/resourceGroups/g/providers/A/b/x")) &&
        l.existing.any (fun r =>
          r.identity.id = "/subscriptions/s/resourceGroups/g/providers/A/b/x") &&
        l.isSkipped "/subscriptions/s/resourceGroups/g/providers/A/b/x" := by
    decide +kernel
  obtain ⟨d, plan, p₀, ht, h₀, hc⟩ := exists_of_prepares hc
  obtain ⟨h, hr⟩ := settleAll_reached small small.refuseNested ht h₀
  simp only [Bool.and_eq_true, decide_eq_true_eq, List.any_eq_true] at hc
  obtain ⟨⟨hb, r, hm, he⟩, hs⟩ := hc
  have hf := Ledger.find_of_object (addressed_old.symm ▸ hb)
  rw [Ledger.findById, if_pos hs] at hf
  refine ⟨d, plan, p₀, h, _, _, ht, h₀, hr, hb, ⟨r, hm, he⟩, ?_⟩
  intro s
  exact ⟨outcome_resolve_skipped hf _ s, fun full => outcome_resolve_skipped hf _ s⟩

end Expander
end ResourceTemplate
