import ResourceTemplate.Proofs.Expander.Failures
import ResourceTemplate.Proofs.Expander.References

namespace ResourceTemplate

theorem DeploymentSymbol.mem_ids_of_getId {s : DeploymentSymbol} {i : Option Nat} {id : String}
    (h : s.getId i = .ok (some id)) : id ∈ s.ids := by
  unfold getId at h
  split at h
  · cases h
    exact List.mem_singleton.mpr rfl
  · cases h
  · cases h
  · split at h
    · rename_i hi
      cases h
      exact List.mem_of_getElem? hi
    · cases h

namespace Ledger

/-- The pending declaration that a target resolves to: by a symbol that is bound to nothing, else by an id
or a name that is known of it. -/
inductive Awaits (l : Ledger) (target : String) (i : Nat) : Prop where
  | symbol (decl : ResourceDeclaration) (name : String) (hb : l.symbols.lookup target = .ok none)
      (hd : decl ∈ l.declarations) (hn : decl.symbol? = some name)
      (hs : Name.same name (addressed target)) (hi : decl.ordinal = i)
      (hp : l.state i = .pending)
  | known (k : KnownIdentity) (hc : l.symbols.contains (addressed target) = false)
      (hk : l.known.find? (fun k => isMeant k.id k.name target) = some k)
      (hi : k.declaration = i) (hp : l.state i = .pending)

theorem Awaits.state {l : Ledger} {target : String} {i : Nat} (h : l.Awaits target i) :
    l.state i = .pending := by
  cases h <;> assumption

theorem Awaits.lt {l : Ledger} {target : String} {i n : Nat} (h : l.Awaits target i)
    (hd : ∀ decl ∈ l.declarations, decl.ordinal < n) (hk : ∀ k ∈ l.known, k.declaration < n) :
    i < n := by
  cases h with
  | symbol decl name hb hm hn hs hi hp => exact hi ▸ hd decl hm
  | known k hc hf hi hp => exact hi ▸ hk k (List.mem_of_find?_eq_some hf)

theorem findingOf_eq_pending {s : DeclarationState} (h : findingOf s = .pending) : s = .pending := by
  cases s <;> first | rfl | cases h

theorem Grounded.findById_ne_pending {l : Ledger} (hg : l.Grounded) {name id : String}
    {s : DeploymentSymbol} (hs : l.symbols.find? name = some s) (hi : id ∈ s.ids) :
    l.findById id ≠ .pending := by
  intro h
  rcases hg.bound name s hs id hi with ⟨r, hr, rfl⟩ | ⟨-, hm⟩
  · rcases findById_of_mem hr with ⟨-, hf⟩ | ⟨-, r', -, -, hf⟩
    · rw [hf] at h
      cases h
    · rw [hf] at h
      cases h
  · rw [findById, if_pos (isSkipped_of_mem hm)] at h
    cases h

theorem findingOfSymbol_eq_pending {l : Ledger} {symbol : String}
    (h : l.findingOfSymbol symbol = .pending) :
    ∃ decl ∈ l.declarations, decl.symbol?.any (fun s => Name.same s symbol) ∧
      l.state decl.ordinal = .pending := by
  unfold findingOfSymbol at h
  dsimp only at h
  split at h
  · cases h
  · split at h
    · rename_i hp
      rw [List.contains_iff_mem, List.mem_map] at hp
      obtain ⟨decl, hd, hs⟩ := hp
      obtain ⟨hd, hn⟩ := List.mem_filter.mp hd
      exact ⟨decl, hd, hn, hs⟩
    · split at h <;> cases h

theorem Grounded.awaits {l : Ledger} (hg : l.Grounded) {target : String}
    (h : l.find target = .ok .pending) : ∃ i, l.Awaits target i := by
  rw [find_eq] at h
  cases hc : l.symbols.contains (addressed target) with
  | true =>
    rw [hc, if_pos rfl] at h
    cases hl : l.symbols.lookup target with
    | error fault => simp [hl] at h
    | ok id? =>
      cases id? with
      | none =>
        -- not bound yet: one of the declarations of the symbol is pending
        simp only [hl, Except.ok.injEq] at h
        obtain ⟨decl, hd, hn, hp⟩ := findingOfSymbol_eq_pending h
        obtain ⟨name, hn, hs⟩ := (Option.any_eq_true _ _).mp hn
        exact ⟨_, .symbol decl name hl hd hn hs rfl hp⟩
      | some id =>
        -- bound: what it is bound to is there or skipped
        simp only [hl, Except.ok.injEq] at h
        rw [lookup_eq, SymbolTable.getId] at hl
        cases hf : l.symbols.find? (addressed target) with
        | none => simp [hf] at hl
        | some s =>
          simp only [hf] at hl
          exact absurd h (hg.findById_ne_pending hf (DeploymentSymbol.mem_ids_of_getId hl))
  | false =>
    -- no symbol: only what is known of an instance makes it pending
    rw [hc, if_neg Bool.false_ne_true] at h
    simp only [Except.ok.injEq, findByIdOrName] at h
    split at h
    · cases h
    · split at h
      · cases h
      · split at h
        · rename_i k hk
          exact ⟨_, .known k hc hk rfl (findingOf_eq_pending h)⟩
        · cases h

end Ledger

namespace Expander

variable {x : Expander} {nested : Nested} {d : Deployment} {plan : Plan} {p₀ : Progress}

theorem readiness_waiting {l : Ledger} {is : List Nat} (h : readiness l is = .waiting) :
    ∃ i ∈ is, l.state i = .pending := by
  induction is with
  | nil => cases h
  | cons i is ih =>
    unfold readiness at h
    cases hs : l.state i with
    | pending => exact ⟨i, List.mem_cons_self, hs⟩
    | failed => simp [hs] at h
    | _ =>
      simp only [hs] at h
      obtain ⟨j, hj, hp⟩ := ih h
      exact ⟨j, List.mem_cons_of_mem i hj, hp⟩

/-- What a declaration waits for when it is tried: a pending declaration that it depends on, or the one
that a reference resolves to with which the attempt at it fails. -/
inductive WaitsFor (x : Expander) (nested : Nested) (d : Deployment) (plan : Plan) (p : Progress)
    (i j : Nat) : Prop where
  | dependency (decl : ResourceDeclaration) (hd : d.template.resources[i]? = some decl)
      (hr : readiness p.ledger (plan.dependenciesOf i) = .waiting)
      (hj : j ∈ plan.dependenciesOf i) (hp : p.ledger.state j = .pending)
  | reference (decl : ResourceDeclaration) (pointer target : String) (s : Scope)
      (hd : d.template.resources[i]? = some decl)
      (hr : readiness p.ledger (plan.dependenciesOf i) = .ready)
      (ha : x.attempt nested d plan decl p =
        (.error (.expression pointer (.unresolvedSymbol target)), s))
      (hj : p.ledger.Awaits target j)

theorem WaitsFor.state {p : Progress} {i j : Nat} (h : WaitsFor x nested d plan p i j) :
    p.ledger.state j = .pending := by
  cases h with
  | dependency decl hd hr hj hp => exact hp
  | reference decl pointer target s hd hr ha hj => exact hj.state

theorem Turn.waitsFor {depth i : Nat} {decl : ResourceDeclaration} {p q : Progress}
    (hn : Template.NumberedFrom 0 d.template.resources)
    (hd : d.template.resources[i]? = some decl) (hg : p.ledger.Grounded)
    (h : Turn x (x.nestedAt depth) d plan decl p (.ok none) q) :
    ∃ j, WaitsFor x (x.nestedAt depth) d plan p i j := by
  have ho : decl.ordinal = i := hn.ordinal hd
  cases h with
  | waits hr =>
    rw [ho] at hr
    obtain ⟨j, hj, hp⟩ := readiness_waiting hr
    exact ⟨j, .dependency decl hd hr hj hp⟩
  | refers e s hr ha hs hu =>
    rw [ho] at hr
    cases ha with
    | expanding ha =>
      obtain ⟨pointer, target, rfl, hf⟩ := attempt_unresolved ha hu
      obtain ⟨j, hj⟩ := hg.awaits hf
      exact ⟨j, .reference decl pointer target s hd hr ha hj⟩
    | entering instances ha hc =>
      obtain ⟨fault, rfl⟩ := Progress.commit_fails decl instances _ e hc
      cases hu

theorem WaitsFor.lt {h : History} {p : Progress} {i j : Nat} (hu : Unsettled d p₀)
    (hp : Planned d p₀.ledger plan) (hr : Recorded d p₀.ledger.known h p)
    (hw : WaitsFor x nested d plan p i j) : j < d.template.resources.length := by
  cases hw with
  | dependency decl hd hr hj hs =>
    have ho : decl.ordinal = i := hu.numbered.ordinal hd
    exact hp.lt hu (List.mem_of_getElem? hd) (ho ▸ hj)
  | reference decl pointer target s hd _ ha hj =>
    refine hj.lt (fun decl hm => ?_) fun k hk => ?_
    · exact hu.numbered.lt_length (hr.declarations ▸ hm)
    · exact hu.learnt k (hr.known ▸ hk)

/-- A pass that settles nothing changes nothing but the scope. -/
theorem PassRun.stalled {is deferred : List Nat} {p q : Progress} {tr : Trace}
    (h : PassRun x nested d plan is p tr (.ok deferred) q) (hh : tr.history = []) :
    deferred = is ∧ (∀ s ∈ p :: tr.states, q = { s with scope := q.scope }) ∧
      ∀ i ∈ is, ∃ decl, d.template.resources[i]? = some decl ∧
        ∃ s ∈ p :: tr.states, ∃ t, Turn x nested d plan decl s (.ok none) t := by
  generalize hr : Except.ok deferred = r at h
  induction h generalizing deferred with
  | nil p =>
    cases hr
    exact ⟨rfl, by simp [Trace.states], by simp⟩
  | @turn i is decl p m q e tr r hd ht hp ih =>
    rw [Trace.history_cons, List.append_eq_nil_iff, Option.toList_eq_nil_iff] at hh
    obtain ⟨rfl, hh⟩ := hh
    cases r with
    | error e => cases hr
    | ok others =>
      cases hr
      obtain ⟨rfl, hsame, hturns⟩ := ih hh rfl
      have hm : m = { p with scope := m.scope } := by
        rcases ht.changes with ⟨-, hm⟩ | ⟨e, he, -⟩
        · exact hm
        · cases he
      refine ⟨rfl, List.forall_mem_cons.mpr ⟨?_, hsame⟩, List.forall_mem_cons.mpr ⟨?_, ?_⟩⟩
      · have hq := hsame m List.mem_cons_self
        rw [hm] at hq
        exact hq
      · exact ⟨decl, hd, p, List.mem_cons_self, m, ht⟩
      · intro j hj
        obtain ⟨decl, hd, s, hs, t, ht⟩ := hturns j hj
        exact ⟨decl, hd, s, List.mem_cons_of_mem p hs, t, ht⟩
  | ends hd ht => cases hr

end Expander
end ResourceTemplate
