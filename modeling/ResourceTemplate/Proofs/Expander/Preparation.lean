import ResourceTemplate.Expander.Expand
import ResourceTemplate.Proofs.Expander.Turn
import ResourceTemplate.Proofs.Order
import ResourceTemplate.Proofs.Template.Numbering

namespace ResourceTemplate.Expander

section

def prepare (d : Deployment) : ExpandM Plan := do
  ExpandM.change declareSymbols
  d.template.resources.forM (learnIdentities d)
  ExpandM.onScope (plan d (← get).ledger)

variable {x : Expander} {nested : Nested} {d : Deployment}

/-- An expansion prepares, settles all declarations, and evaluates the outputs. -/
theorem run_eq_prepare (x : Expander) (nested : Nested) (d : Deployment) :
    x.run nested d =
      (do
        let plan ← prepare d
        x.settleAll nested d plan
        evalOutputs d [] d.template.outputs) := by
  simp only [run, prepare, bind_assoc]

/-- A progress of which no declaration is settled: symbols are declared, identities may be known. -/
structure Unsettled (d : Deployment) (p : Progress) : Prop where
  numbered : Template.NumberedFrom 0 d.template.resources
  declarations : p.ledger.declarations = d.template.resources
  states : p.ledger.states = d.template.resources.map fun _ => .pending
  resources : p.ledger.resources = []
  existing : p.ledger.existing = []
  skipped : p.ledger.skipped = []
  emitted : p.emitted = []
  instanceIds : p.instanceIds = d.template.resources.map fun _ => []
  symbols : d.template.resources.foldlM declareSymbol {} = .ok p.ledger.symbols
  learnt : ∀ k ∈ p.ledger.known, k.declaration < d.template.resources.length

theorem unsettled_declare {s : Scope} {p : Progress}
    (hn : Template.NumberedFrom 0 d.template.resources)
    (h : declareSymbols (.start s d.template.resources) = .ok p) : Unsettled d p := by
  unfold declareSymbols at h
  cases hs : d.template.resources.foldlM declareSymbol {} with
  | error fault =>
    simp only [Progress.start, Ledger.ofDeclarations, hs] at h
    cases h
  | ok symbols =>
    simp only [Progress.start, Ledger.ofDeclarations, hs] at h
    cases h
    exact ⟨hn, rfl, rfl, rfl, rfl, rfl, rfl, rfl, hs, by simp⟩

theorem Unsettled.scope {p : Progress} (h : Unsettled d p) (scope : Scope) :
    Unsettled d { p with scope } :=
  ⟨h.1, h.2, h.3, h.4, h.5, h.6, h.7, h.8, h.9, h.10⟩

/-- To learn the identities of a declaration settles nothing. -/
theorem Unsettled.learn {p q : Progress} {decl : ResourceDeclaration} (h : Unsettled d p)
    (hd : decl ∈ d.template.resources)
    (hl : outcome (learnIdentities d decl) p = (.ok (), q)) : Unsettled d q := by
  unfold learnIdentities at hl
  obtain ⟨_, _, hg, hl⟩ := outcome_bind_eq_ok.mp hl
  cases hg
  obtain ⟨identities, u, ho, hl⟩ := outcome_bind_eq_ok.mp hl
  obtain ⟨t, -, rfl⟩ := ExpandM.outcome_onScope_eq_ok.mp ho
  cases hl
  refine ⟨h.1, h.2, h.3, h.4, h.5, h.6, h.7, h.8, h.9, ?_⟩
  intro k hk
  rcases List.mem_append.mp hk with hk | hk
  · exact h.learnt k hk
  · obtain ⟨r, -, rfl⟩ := List.mem_map.mp hk
    exact h.numbered.lt_length hd

theorem Unsettled.learnAll {ds : List ResourceDeclaration} {p q : Progress} (h : Unsettled d p)
    (hd : ∀ decl ∈ ds, decl ∈ d.template.resources)
    (hl : outcome (ds.forM (learnIdentities d)) p = (.ok (), q)) : Unsettled d q := by
  induction ds generalizing p with
  | nil =>
    cases hl
    exact h
  | cons decl ds ih =>
    rw [List.forall_mem_cons] at hd
    obtain ⟨_, u, ho, hl⟩ := outcome_bind_eq_ok.mp hl
    exact ih (h.learn hd.1 ho) hd.2 hl

/-- What a plan holds: every declaration once, each with the one it stands in and those that its texts
mean, as they are evaluated from some scope. -/
structure Planned (d : Deployment) (l : Ledger) (plan : Plan) : Prop where
  order : plan.order.Perm (List.range d.template.resources.length)
  dependencies : ∀ decl ∈ d.template.resources, ∃ s t texts,
    outcome (dependencyTexts d l decl) s = (.ok texts, t) ∧
      plan.dependenciesOf decl.ordinal = (decl.parent.toList ++
        (texts.flatMap (dependenciesOf l)).filter (· != decl.ordinal)).eraseDups

theorem dependencies_ok {l : Ledger} {decl : ResourceDeclaration} {s t : Scope} {is : List Nat}
    (h : outcome (dependencies d l decl) s = (.ok is, t)) :
    ∃ u texts, outcome (dependencyTexts d l decl) s = (.ok texts, u) ∧
      is = (decl.parent.toList ++
        (texts.flatMap (dependenciesOf l)).filter (· != decl.ordinal)).eraseDups := by
  unfold dependencies at h
  obtain ⟨texts, u, ht, h⟩ := outcome_bind_eq_ok.mp h
  obtain ⟨_, v, -, h⟩ := outcome_bind_eq_ok.mp h
  cases h
  exact ⟨u, texts, ht, rfl⟩

/-- The plan evaluates what a declaration depends on once it has done so for those before it. -/
theorem plan_dependencies {l : Ledger} {s t : Scope} {p : Plan} {decl : ResourceDeclaration}
    (hn : Template.NumberedFrom 0 d.template.resources)
    (hl : l.declarations = d.template.resources)
    (h : outcome (plan d l) s = (.ok p, t)) (hd : decl ∈ d.template.resources) : ∃ named u v texts,
      outcome ((d.template.resources.take decl.ordinal).mapM (dependencies d l)) s = (.ok named, u) ∧
      outcome (dependencyTexts d l decl) u = (.ok texts, v) ∧
      p.dependenciesOf decl.ordinal = (decl.parent.toList ++
        (texts.flatMap (dependenciesOf l)).filter (· != decl.ordinal)).eraseDups := by
  unfold plan at h
  obtain ⟨nodes, w, hm, h⟩ := outcome_bind_eq_ok.mp h
  rw [hl] at hm
  -- a declaration's ordinal is its place, and that of its node
  obtain ⟨first, u, node, v, hfirst, hnode, hi⟩ := outcome_mapM_turn hm (hn.getElem? hd)
  obtain ⟨named, hnamed⟩ := outcome_mapM_of_map hfirst
  obtain ⟨is, v', hdeps, hnode⟩ := outcome_bind_eq_ok.mp hnode
  cases hnode
  obtain ⟨v'', texts, htexts, rfl⟩ := dependencies_ok hdeps
  refine ⟨named, u, v'', texts, hnamed, htexts, ?_⟩
  cases ho : expansionOrder nodes with
  | error cycle =>
    simp only [ho] at h
    cases h
  | ok order =>
    simp only [ho] at h
    cases h
    simp [Plan.dependenciesOf, hi]

theorem plan_planned {l : Ledger} {s t : Scope} {p : Plan}
    (hn : Template.NumberedFrom 0 d.template.resources)
    (hl : l.declarations = d.template.resources)
    (h : outcome (plan d l) s = (.ok p, t)) : Planned d l p where
  order := by
    unfold plan at h
    obtain ⟨nodes, u, hm, h⟩ := outcome_bind_eq_ok.mp h
    have hf := outcome_mapM_ok hm
    rw [hl] at hf
    cases ho : expansionOrder nodes with
    | error cycle =>
      simp only [ho] at h
      cases h
    | ok order =>
      simp only [ho] at h
      cases h
      rw [hf.length_eq]
      exact expansionOrder_perm ho
  dependencies decl hd := by
    obtain ⟨-, u, v, texts, -, htexts, he⟩ := plan_dependencies hn hl h hd
    exact ⟨u, v, texts, htexts, he⟩

theorem dependenciesOf_lt {p : Progress} (h : Unsettled d p) {text : String} {i : Nat}
    (hi : i ∈ dependenciesOf p.ledger text) : i < d.template.resources.length := by
  unfold dependenciesOf at hi
  rw [List.mem_eraseDups, List.mem_append, List.mem_map, List.mem_map] at hi
  rcases hi with ⟨decl, hd, rfl⟩ | ⟨k, hk, rfl⟩
  · rw [h.declarations] at hd
    exact h.numbered.lt_length (List.mem_filter.mp hd).1
  · exact h.learnt k (List.mem_filter.mp hk).1

theorem Planned.lt {p : Progress} {plan : Plan} (hp : Planned d p.ledger plan)
    (h : Unsettled d p) {decl : ResourceDeclaration} (hd : decl ∈ d.template.resources) {i : Nat}
    (hi : i ∈ plan.dependenciesOf decl.ordinal) : i < d.template.resources.length := by
  obtain ⟨s, t, texts, -, he⟩ := hp.dependencies decl hd
  rw [he, List.mem_eraseDups, List.mem_append, List.mem_filter, List.mem_flatMap] at hi
  rcases hi with hi | ⟨⟨text, -, hi⟩, -⟩
  · -- a declaration stands in one that comes before it
    have hlt : i < decl.ordinal := h.numbered.parents decl hd i (by simpa using hi)
    exact Nat.lt_trans hlt (h.numbered.lt_length hd)
  · exact dependenciesOf_lt h hi

theorem prepare_eq_ok {s₀ : Scope} {plan : Plan} {p₀ : Progress}
    (h : outcome (prepare d) (.start s₀ d.template.resources) = (.ok plan, p₀)) :
    ∃ q m t, declareSymbols (.start s₀ d.template.resources) = .ok q ∧
      outcome (d.template.resources.forM (learnIdentities d)) q = (.ok (), m) ∧
      outcome (Expander.plan d m.ledger) m.scope = (.ok plan, t) ∧ p₀ = { m with scope := t } := by
  unfold prepare at h
  obtain ⟨_, q, hs, h⟩ := outcome_bind_eq_ok.mp h
  obtain ⟨_, m, hk, h⟩ := outcome_bind_eq_ok.mp h
  obtain ⟨_, _, hg, h⟩ := outcome_bind_eq_ok.mp h
  cases hg
  obtain ⟨t, hp, rfl⟩ := ExpandM.outcome_onScope_eq_ok.mp h
  refine ⟨q, m, t, ?_, hk, hp, rfl⟩
  rw [ExpandM.outcome_change] at hs
  split at hs
  · rename_i hq
    cases hs
    exact hq
  · cases hs

theorem prepare_ok {s : Scope} {plan : Plan} {p : Progress}
    (hn : Template.NumberedFrom 0 d.template.resources)
    (h : outcome (prepare d) (.start s d.template.resources) = (.ok plan, p)) :
    Unsettled d p ∧ Planned d p.ledger plan := by
  obtain ⟨q, m, t, hq, hm, hp, rfl⟩ := prepare_eq_ok h
  have hu : Unsettled d m := (unsettled_declare hn hq).learnAll (fun _ => id) hm
  exact ⟨hu.scope t, plan_planned hn hu.declarations hp⟩

/-- The root deployment of a template without values of a caller, with its plan and the progress that
it starts from, if it can be prepared. -/
def prepared? (o : Options) (v : Json) : Option (Deployment × Plan × Progress) :=
  match Template.ofJson v with
  | .error _ => none
  | .ok t =>
    let d : Deployment := ⟨t, o, .root o t.scopeLevel, []⟩
    match outcome (prepare d) (.start {} t.resources) with
    | (.error _, _) => none
    | (.ok plan, p) => some (d, plan, p)

theorem prepared?_eq_some {o : Options} {v : Json} {plan : Plan} {p : Progress}
    (h : prepared? o v = some (d, plan, p)) : Template.ofJson v = .ok d.template ∧
      outcome (prepare d) (.start {} d.template.resources) = (.ok plan, p) := by
  unfold prepared? at h
  cases ht : Template.ofJson v with
  | error e =>
    rw [ht] at h
    cases h
  | ok t =>
    simp only [ht] at h
    rcases hp : outcome (prepare ⟨t, o, .root o t.scopeLevel, []⟩) (.start {} t.resources) with
      ⟨e | plan, p⟩
    · simp only [hp] at h
      cases h
    · simp only [hp] at h
      cases h
      exact ⟨rfl, hp⟩

def prepares (o : Options) (v : Json) (check : Deployment → Plan → Progress → Bool) : Bool :=
  (prepared? o v).any fun (d, plan, p) => check d plan p

theorem exists_of_prepares {o : Options} {v : Json} {check : Deployment → Plan → Progress → Bool}
    (h : prepares o v check = true) : ∃ d plan p, Template.ofJson v = .ok d.template ∧
      outcome (prepare d) (.start {} d.template.resources) = (.ok plan, p) ∧
      check d plan p = true := by
  obtain ⟨⟨d, plan, p⟩, hp, hc⟩ := (Option.any_eq_true _ _).mp h
  obtain ⟨ht, h₀⟩ := prepared?_eq_some hp
  exact ⟨d, plan, p, ht, h₀, hc⟩

def small : Expander where
  options := { deploymentName := "d", subscription := ⟨"s", "t", "s"⟩,
               resourceGroup := { name := "g" }, tenantId := "t", managementGroup := "m" }
  secrets := {}
  ignored := {}
  loader := none

end

variable {d : Deployment} {plan : Plan}

/-- The identities of a declaration that can be evaluated are entered after those that are known. -/
theorem learnIdentities_ok {decl : ResourceDeclaration} {p q : Progress}
    (h : outcome (learnIdentities d decl) p = (.ok (), q)) :
    ∃ identities s, outcome (d.previewIdentities p.ledger decl) p.scope = (.ok identities, s) ∧
      q = { p with scope := s, ledger := { p.ledger with
        known := p.ledger.known ++ identities.map fun r => ⟨decl.ordinal, r.id, r.name⟩ } } := by
  unfold learnIdentities at h
  obtain ⟨_, _, hg, h⟩ := outcome_bind_eq_ok.mp h
  cases hg
  obtain ⟨identities, u, ho, h⟩ := outcome_bind_eq_ok.mp h
  obtain ⟨s, hs, rfl⟩ := ExpandM.outcome_onScope_eq_ok.mp ho
  cases h
  exact ⟨identities, s, hs, rfl⟩

theorem known_subset_of_learnAll {ds : List ResourceDeclaration} {p q : Progress}
    (h : outcome (ds.forM (learnIdentities d)) p = (.ok (), q)) : p.ledger.known ⊆ q.ledger.known := by
  induction ds generalizing p with
  | nil =>
    cases h
    exact List.Subset.refl _
  | cons decl ds ih =>
    obtain ⟨_, u, hl, h⟩ := outcome_bind_eq_ok.mp h
    obtain ⟨identities, s, -, rfl⟩ := learnIdentities_ok hl
    exact List.Subset.trans (List.subset_append_left _ _) (ih h)

theorem learnAll_split {before after : List ResourceDeclaration} {decl : ResourceDeclaration} {p q : Progress}
    (h : outcome ((before ++ decl :: after).forM (learnIdentities d)) p = (.ok (), q)) :
    ∃ m identities s, outcome (before.forM (learnIdentities d)) p = (.ok (), m) ∧
      outcome (d.previewIdentities m.ledger decl) m.scope = (.ok identities, s) ∧
      ∀ r ∈ identities, ⟨decl.ordinal, r.id, r.name⟩ ∈ q.ledger.known := by
  induction before generalizing p with
  | nil =>
    obtain ⟨_, u, hl, h⟩ := outcome_bind_eq_ok.mp h
    obtain ⟨identities, s, hi, rfl⟩ := learnIdentities_ok hl
    refine ⟨p, identities, s, rfl, hi, fun r hr => known_subset_of_learnAll h ?_⟩
    exact List.mem_append_right _ (List.mem_map.mpr ⟨r, hr, rfl⟩)
  | cons first before ih =>
    obtain ⟨_, u, hl, h⟩ := outcome_bind_eq_ok.mp h
    obtain ⟨m, identities, s, hm, hi, hk⟩ := ih h
    exact ⟨m, identities, s, outcome_bind_eq_ok.mpr ⟨_, u, hl, hm⟩, hi, hk⟩

/-- Whether the identities of a declaration are collected from a progress: the symbols are declared, and the
declarations before it have had their turn. -/
def Collects (d : Deployment) (s₀ : Scope) (before : List ResourceDeclaration) (m : Progress) : Prop :=
  ∃ p, declareSymbols (.start s₀ d.template.resources) = .ok p ∧
    outcome (before.forM (learnIdentities d)) p = (.ok (), m)

/-- Whether what a declaration depends on is evaluated from a scope when the plan is made: the identities of all
declarations are collected, and what the declarations before it depend on was evaluated. -/
def PlansFrom (d : Deployment) (s₀ : Scope) (decl : ResourceDeclaration) (l : Ledger) (s : Scope) : Prop :=
  ∃ m named, Collects d s₀ d.template.resources m ∧ m.ledger = l ∧
    outcome ((d.template.resources.take decl.ordinal).mapM (dependencies d l)) m.scope = (.ok named, s)

/-- What the plan of a prepared expansion lets a declaration depend on. -/
theorem prepare_dependencies {s₀ : Scope} {p₀ : Progress} {decl : ResourceDeclaration}
    (hn : Template.NumberedFrom 0 d.template.resources)
    (h : outcome (prepare d) (.start s₀ d.template.resources) = (.ok plan, p₀)) (hd : decl ∈ d.template.resources) :
    ∃ s t texts, PlansFrom d s₀ decl p₀.ledger s ∧
      outcome (dependencyTexts d p₀.ledger decl) s = (.ok texts, t) ∧
      plan.dependenciesOf decl.ordinal = (decl.parent.toList ++
        (texts.flatMap (dependenciesOf p₀.ledger)).filter (· != decl.ordinal)).eraseDups := by
  have hu := (prepare_ok hn h).1
  obtain ⟨q, m, t, hq, hm, hp, rfl⟩ := prepare_eq_ok h
  obtain ⟨named, u, v, texts, hnamed, htexts, he⟩ := plan_dependencies hn hu.declarations hp hd
  exact ⟨u, v, texts, ⟨m, named, ⟨q, hq, hm⟩, rfl, hnamed⟩, htexts, he⟩

/-- What is collected of a declaration is known once the expansion is prepared. -/
theorem prepare_collects {s₀ : Scope} {p₀ : Progress} {before after : List ResourceDeclaration}
    {decl : ResourceDeclaration} (h : outcome (prepare d) (.start s₀ d.template.resources) = (.ok plan, p₀))
    (hd : d.template.resources = before ++ decl :: after) :
    ∃ m identities s, Collects d s₀ before m ∧
      outcome (d.previewIdentities m.ledger decl) m.scope = (.ok identities, s) ∧
      ∀ r ∈ identities, ⟨decl.ordinal, r.id, r.name⟩ ∈ p₀.ledger.known := by
  obtain ⟨q, n, t, hq, hn, -, rfl⟩ := prepare_eq_ok h
  rw [hd] at hn
  obtain ⟨m, identities, s, hm, hi, hknown⟩ := learnAll_split hn
  exact ⟨m, identities, s, ⟨q, hq, hm⟩, hi, hknown⟩

end ResourceTemplate.Expander
