import ResourceTemplate.Proofs.Outcome

namespace ResourceTemplate

theorem foldlM_keeps {ε α β : Type} {f : β → α → Except ε β} {P : β → Prop} {xs : List α}
    (step : ∀ b a b', a ∈ xs → P b → f b a = .ok b' → P b') {b b' : β} (hb : P b)
    (h : xs.foldlM f b = .ok b') : P b' := by
  induction xs generalizing b with
  | nil =>
    cases h
    exact hb
  | cons x xs ih =>
    rw [List.foldlM_cons] at h
    obtain ⟨c, hx, h⟩ := bind_eq_ok.mp h
    apply ih (fun b a b' ha => step b a b' (List.mem_cons_of_mem x ha)) ?_ h
    exact step b x c List.mem_cons_self hb hx

/-- A fold whose every step appends to a view appends to it what all steps append. -/
theorem foldlM_appends {ε α β γ : Type} {f : β → α → Except ε β} (P : β → Prop)
    (view : β → List γ) (adds : α → List γ)
    (step : ∀ b a b', P b → f b a = .ok b' → P b' ∧ view b' = view b ++ adds a)
    {xs : List α} {b b' : β} (hb : P b) (h : xs.foldlM f b = .ok b') :
    view b' = view b ++ xs.flatMap adds := by
  induction xs generalizing b with
  | nil =>
    cases h
    simp
  | cons x xs ih =>
    rw [List.foldlM_cons] at h
    obtain ⟨c, hx, h⟩ := bind_eq_ok.mp h
    obtain ⟨hc, hv⟩ := step b x c hb hx
    rw [ih hc h, hv, List.flatMap_cons, List.append_assoc]

namespace Instance

@[simp] def resources : Instance → List ResourceValue
  | .emitted r _ => [r]
  | _ => []

@[simp] def existingResources : Instance → List ResourceValue
  | .existing r => [r]
  | _ => []

@[simp] def skippedIds : Instance → List String
  | .skipped (some id) => [id]
  | _ => []

@[simp] def nested? : Instance → Option ExpandedDeployment
  | .emitted _ nested => nested
  | _ => none

/-- The resource that the instance emits, followed by those of its nested deployment. -/
@[simp] def block (i : Instance) : List ResourceValue :=
  i.resources ++ (i.nested?.map ExpandedDeployment.resources).getD []

@[simp] def failures (i : Instance) : List ExpansionFailure :=
  (i.nested?.map ExpandedDeployment.failures).getD []

@[simp] def diagnostics (i : Instance) : List Diagnostic :=
  (i.nested?.map ExpandedDeployment.diagnostics).getD []

@[simp] def boundId? (iterated : Bool) : Instance → Option String
  | .emitted r _ => some r.identity.id
  | .existing r => some r.identity.id
  | .skipped id => if iterated then id else none

end Instance

def Binds (decl : ResourceDeclaration) (id : Option String) (t u : SymbolTable) : Prop :=
  match decl.symbol?, id with
  | some symbol, some id => t.configure symbol id = .ok u
  | _, _ => u = t

theorem binds_none (decl : ResourceDeclaration) (t : SymbolTable) : Binds decl none t t := by
  unfold Binds
  cases decl.symbol? <;> rfl

namespace Progress

theorem bind_ok {p q : Progress} {decl : ResourceDeclaration} {id : String}
    (h : p.bind decl id = .ok q) :
    ∃ symbols, q = { p with ledger := { p.ledger with symbols } } ∧
      Binds decl (some id) p.ledger.symbols symbols := by
  unfold bind at h
  unfold Binds
  cases hs : decl.symbol? with
  | none =>
    rw [hs] at h
    cases h
    exact ⟨p.ledger.symbols, rfl, rfl⟩
  | some symbol =>
    rw [hs] at h
    cases hc : p.ledger.symbols.configure symbol id with
    | error fault =>
      simp only [hc] at h
      cases h
    | ok symbols =>
      simp only [hc] at h
      cases h
      exact ⟨symbols, rfl, hc⟩

theorem idsOf_emit (p : Progress) {ordinal : Nat} (h : ordinal < p.instanceIds.length)
    (r : ResourceValue) (o : Nat) :
    (p.emit ordinal r).idsOf o = p.idsOf o ++ if o = ordinal then [r.identity.id] else [] := by
  unfold idsOf emit
  dsimp only
  by_cases ho : o = ordinal
  · subst ho
    simp [List.getElem?_set_self h, idsOf]
  · simp [List.getElem?_set_ne (Ne.symm ho), ho]

structure Entered (decl : ResourceDeclaration) (i : Instance) (p q : Progress) : Prop where
  declarations : q.ledger.declarations = p.ledger.declarations
  states : q.ledger.states = p.ledger.states
  known : q.ledger.known = p.ledger.known
  resources : q.ledger.resources = p.ledger.resources ++ i.resources
  existing : q.ledger.existing = p.ledger.existing ++ i.existingResources
  skipped : q.ledger.skipped = p.ledger.skipped ++ i.skippedIds
  emitted : q.emitted = p.emitted ++ i.block
  size : q.instanceIds.length = p.instanceIds.length
  ids : ∀ o, decl.ordinal < p.instanceIds.length →
    q.idsOf o = p.idsOf o ++ if o = decl.ordinal then i.resources.map (·.identity.id) else []
  symbols : Binds decl (i.boundId? decl.copy.isSome) p.ledger.symbols q.ledger.symbols

theorem enter_entered {decl : ResourceDeclaration} {i : Instance} {p q : Progress}
    (h : enter decl p i = .ok q) : Entered decl i p q := by
  cases i with
  | emitted r nested =>
    obtain ⟨p', hb, h⟩ := bind_eq_ok.mp h
    obtain ⟨symbols, rfl, hs⟩ := bind_ok hb
    cases nested with
    | none =>
      cases h
      constructor
      case ids => exact fun o ho => idsOf_emit _ ho r o
      case symbols => exact hs
      all_goals simp [emit]
    | some x =>
      cases h
      constructor
      case ids => exact fun o ho => idsOf_emit _ ho r o
      case symbols => exact hs
      all_goals simp [emit, absorb]
  | existing r =>
    obtain ⟨p', hb, h⟩ := bind_eq_ok.mp h
    obtain ⟨symbols, rfl, hs⟩ := bind_ok hb
    cases h
    constructor
    case symbols => exact hs
    all_goals simp [idsOf]
  | skipped id =>
    cases id with
    | none =>
      cases h
      constructor
      all_goals simp [binds_none]
    | some id =>
      -- the symbol of a loop is bound as well, so that it has an id for every index
      unfold enter at h
      by_cases hc : decl.copy.isSome
      · simp only [hc, if_true] at h
        obtain ⟨p', hb, h⟩ := bind_eq_ok.mp h
        obtain ⟨symbols, rfl, hs⟩ := bind_ok hb
        cases h
        constructor
        all_goals simp [idsOf, hc, hs]
      · simp only [hc] at h
        cases h
        constructor
        all_goals simp [idsOf, hc, binds_none]

/-- An instance adds the failures and the diagnostics that it comes with, and changes nothing else of the
scope. -/
theorem enter_adds {decl : ResourceDeclaration} {i : Instance} {p q : Progress}
    (h : enter decl p i = .ok q) :
    q.scope = { p.scope with diagnostics := p.scope.diagnostics ++ i.diagnostics } ∧
      q.failures = p.failures ++ i.failures := by
  cases i with
  | emitted r nested =>
    obtain ⟨p', hb, h⟩ := bind_eq_ok.mp h
    obtain ⟨symbols, rfl, -⟩ := bind_ok hb
    cases nested with
    | none =>
      cases h
      simp [emit]
    | some x =>
      cases h
      simp [emit, absorb]
  | existing r =>
    obtain ⟨p', hb, h⟩ := bind_eq_ok.mp h
    obtain ⟨symbols, rfl, -⟩ := bind_ok hb
    cases h
    simp
  | skipped id =>
    cases id with
    | none =>
      cases h
      simp
    | some id =>
      unfold enter at h
      by_cases hc : decl.copy.isSome
      · simp only [hc, if_true] at h
        obtain ⟨p', hb, h⟩ := bind_eq_ok.mp h
        obtain ⟨symbols, rfl, -⟩ := bind_ok hb
        cases h
        simp
      · simp only [hc] at h
        cases h
        simp

/-- To enter instances changes nothing of the scope but the diagnostics. -/
theorem commit_scope {decl : ResourceDeclaration} {instances : List Instance} {p q : Progress}
    (h : commit decl instances p = .ok q) :
    ∃ diagnostics, q.scope = { p.scope with diagnostics } := by
  unfold commit at h
  obtain ⟨m, hf, h⟩ := bind_eq_ok.mp h
  cases h
  refine foldlM_keeps (P := fun q => ∃ diagnostics, q.scope = { p.scope with diagnostics }) ?_
    ⟨_, rfl⟩ hf
  rintro q i q' - ⟨diagnostics, hq⟩ he
  refine ⟨diagnostics ++ i.diagnostics, ?_⟩
  rw [(enter_adds he).1, hq]

/-- To enter instances adds the diagnostics that they come with. -/
theorem commit_diagnostics {decl : ResourceDeclaration} {instances : List Instance} {p q : Progress}
    (h : commit decl instances p = .ok q) :
    q.scope.diagnostics = p.scope.diagnostics ++ instances.flatMap Instance.diagnostics := by
  unfold commit at h
  obtain ⟨m, hf, h⟩ := bind_eq_ok.mp h
  cases h
  refine foldlM_appends (fun _ => True) (fun p => p.scope.diagnostics) Instance.diagnostics ?_ trivial hf
  intro p i q _ he
  exact ⟨trivial, by rw [(enter_adds he).1]⟩

/-- What it does to settle the declaration at a position in a state, with these instances. -/
structure Settled (ordinal : Nat) (state : DeclarationState) (instances : List Instance)
    (p q : Progress) : Prop where
  declarations : q.ledger.declarations = p.ledger.declarations
  states : q.ledger.states = p.ledger.states.set ordinal state
  known : q.ledger.known = p.ledger.known
  resources : q.ledger.resources = p.ledger.resources ++ instances.flatMap Instance.resources
  existing : q.ledger.existing = p.ledger.existing ++ instances.flatMap Instance.existingResources
  skipped : q.ledger.skipped = p.ledger.skipped ++ instances.flatMap Instance.skippedIds
  emitted : q.emitted = p.emitted ++ instances.flatMap Instance.block
  size : q.instanceIds.length = p.instanceIds.length
  ids : ∀ o, ordinal < p.instanceIds.length →
    q.idsOf o = p.idsOf o ++ if o = ordinal then
      (instances.flatMap Instance.resources).map (·.identity.id) else []

theorem commit_settled {decl : ResourceDeclaration} {instances : List Instance} {p q : Progress}
    (h : commit decl instances p = .ok q) :
    Settled decl.ordinal (stateOf instances) instances p q := by
  unfold commit at h
  obtain ⟨m, hf, h⟩ := bind_eq_ok.mp h
  cases h
  -- what no instance changes stays, and what each appends to is appended to in turn
  have keeps {γ : Type} (view : Progress → γ)
      (hv : ∀ i p q, Entered decl i p q → view q = view p) : view m = view p :=
    foldlM_keeps (P := fun q => view q = view p)
      (fun _ i _ _ hb h => (hv i _ _ (enter_entered h)).trans hb) rfl hf
  have appends {γ : Type} (view : Progress → List γ) (adds : Instance → List γ)
      (hv : ∀ i p q, Entered decl i p q → view q = view p ++ adds i) :
      view m = view p ++ instances.flatMap adds :=
    foldlM_appends (fun _ => True) view adds
      (fun _ _ _ _ h => ⟨trivial, hv _ _ _ (enter_entered h)⟩) trivial hf
  refine ⟨keeps (fun p => p.ledger.declarations) fun _ _ _ e => e.declarations, ?_,
    keeps (fun p => p.ledger.known) fun _ _ _ e => e.known,
    appends (fun p => p.ledger.resources) _ fun _ _ _ e => e.resources,
    appends (fun p => p.ledger.existing) _ fun _ _ _ e => e.existing,
    appends (fun p => p.ledger.skipped) _ fun _ _ _ e => e.skipped,
    appends (fun p => p.emitted) _ fun _ _ _ e => e.emitted,
    keeps (fun p => p.instanceIds.length) fun _ _ _ e => e.size, ?_⟩
  · have hs : m.ledger.states = p.ledger.states :=
      keeps (fun p => p.ledger.states) fun _ _ _ e => e.states
    simp [setState, Ledger.setState, hs]
  · intro o ho
    have hi : m.idsOf o = p.idsOf o ++ instances.flatMap fun i =>
        if o = decl.ordinal then i.resources.map (·.identity.id) else [] :=
      foldlM_appends (fun q => decl.ordinal < q.instanceIds.length) (fun q => q.idsOf o) _
        (fun _ _ _ hb h => ⟨(enter_entered h).size ▸ hb, (enter_entered h).ids o hb⟩) ho hf
    change m.idsOf o = _
    rw [hi]
    by_cases hd : o = decl.ordinal
    · simp [hd, List.map_flatMap]
    · simp [hd]

theorem fail_settled (d : Deployment) (decl : ResourceDeclaration) (e : ExpandError) (p : Progress) :
    Settled decl.ordinal .failed [] p (p.fail d decl e) := by
  constructor
  all_goals simp [fail, recordFailure, setState, Ledger.setState, idsOf]

end Progress
end ResourceTemplate
