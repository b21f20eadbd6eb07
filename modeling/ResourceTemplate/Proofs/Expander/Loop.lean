import ResourceTemplate.Proofs.Expander.History

namespace ResourceTemplate.Expander

/-- A turn of a run: the declaration that it settled, if it did, and the progress after it. -/
structure Step where
  settled? : Option Settlement
  after : Progress

abbrev Trace := List Step

namespace Trace

def history (tr : Trace) : History := tr.filterMap Step.settled?

def states (tr : Trace) : List Progress := tr.map Step.after

def after (tr : Trace) (p : Progress) : Progress := tr.foldl (fun _ step => step.after) p

theorem after_append (tr ur : Trace) (p : Progress) : after (tr ++ ur) p = ur.after (tr.after p) :=
  List.foldl_append

theorem history_cons (e : Option Settlement) (p : Progress) (tr : Trace) :
    history (⟨e, p⟩ :: tr) = e.toList ++ tr.history := by
  cases e <;> rfl

@[simp] theorem history_append (tr ur : Trace) : history (tr ++ ur) = tr.history ++ ur.history :=
  List.filterMap_append

@[simp] theorem states_append (tr ur : Trace) : states (tr ++ ur) = tr.states ++ ur.states :=
  List.map_append

end Trace

/-- A pass over pending declarations: its turns, what it gives, and where it ends. It gives those that
it does not settle, unless a turn ends the expansion. -/
inductive PassRun (x : Expander) (nested : Nested) (d : Deployment) (plan : Plan) :
    List Nat → Progress → Trace → Except ExpandError (List Nat) → Progress → Prop where
  | nil (p : Progress) : PassRun x nested d plan [] p [] (.ok []) p
  | turn {i : Nat} {is : List Nat} {decl : ResourceDeclaration} {p m q : Progress}
      {e : Option Settlement} {tr : Trace} {r : Except ExpandError (List Nat)}
      (hd : d.template.resources[i]? = some decl) (ht : Turn x nested d plan decl p (.ok e) m)
      (hp : PassRun x nested d plan is m tr r q) :
      PassRun x nested d plan (i :: is) p (⟨e, m⟩ :: tr)
        (r.map fun deferred => if e.isSome then deferred else i :: deferred) q
  | ends {i : Nat} {is : List Nat} {decl : ResourceDeclaration} {p q : Progress} {e : ExpandError}
      (hd : d.template.resources[i]? = some decl) (ht : Turn x nested d plan decl p (.error e) q) :
      PassRun x nested d plan (i :: is) p [⟨none, q⟩] (.error e) q

/-- The loop over pending declarations: how many passes it takes, its turns, what it gives, and where it
ends. It goes on as long as passes settle declarations, however many that takes. -/
inductive Loop (x : Expander) (nested : Nested) (d : Deployment) (plan : Plan) :
    Nat → List Nat → Progress → Trace → Except ExpandError Unit → Progress → Prop where
  | done (p : Progress) : Loop x nested d plan 0 [] p [] (.ok ()) p
  | ends {is : List Nat} {p q : Progress} {tr : Trace} {e : ExpandError} (hn : is ≠ [])
      (hp : PassRun x nested d plan is p tr (.error e) q) :
      Loop x nested d plan 1 is p tr (.error e) q
  | stalls {is deferred : List Nat} {p q : Progress} {tr : Trace} (hn : is ≠ [])
      (hp : PassRun x nested d plan is p tr (.ok deferred) q) (hh : tr.history = [])
      (hd : deferred ≠ []) :
      Loop x nested d plan 1 is p tr (.error (waitingError q.ledger deferred)) q
  | again {n : Nat} {is deferred : List Nat} {p m q : Progress} {tr ur : Trace}
      {r : Except ExpandError Unit} (hn : is ≠ [])
      (hp : PassRun x nested d plan is p tr (.ok deferred) m)
      (hh : tr.history ≠ [] ∨ deferred = []) (hl : Loop x nested d plan n deferred m ur r q) :
      Loop x nested d plan (n + 1) is p (tr ++ ur) r q

def Settles (p q : Progress) : Prop :=
  ∀ o, p.ledger.state o ≠ .pending → q.ledger.state o = p.ledger.state o

theorem Settles.refl (p : Progress) : Settles p p := fun _ _ => rfl

theorem Settles.trans {p q u : Progress} (h : Settles p q) (k : Settles q u) : Settles p u := by
  intro o ho
  have hq : q.ledger.state o = p.ledger.state o := h o ho
  rw [k o (hq ▸ ho), hq]

/-- A run from one progress through others to another, in which what is settled stays as it is. -/
structure Settling (p : Progress) (states : List Progress) (q : Progress) : Prop where
  pairwise : (p :: states).Pairwise Settles
  last : ∀ s ∈ p :: states, Settles s q

namespace Settling

theorem nil (p : Progress) : Settling p [] p where
  pairwise := List.pairwise_singleton ..
  last s hs := by
    rw [List.mem_singleton.mp hs]
    exact .refl p

theorem cons {p m q : Progress} {states : List Progress} (h : Settles p m)
    (k : Settling m states q) : Settling p (m :: states) q where
  pairwise := by
    refine List.pairwise_cons.mpr ⟨?_, k.pairwise⟩
    intro s hs
    rcases List.mem_cons.mp hs with rfl | hs
    · exact h
    · exact h.trans (List.rel_of_pairwise_cons k.pairwise hs)
  last s hs := by
    rcases List.mem_cons.mp hs with rfl | hs
    · exact h.trans (k.last m List.mem_cons_self)
    · exact k.last s hs

theorem append {p m q : Progress} {states others : List Progress} (h : Settling p states m)
    (k : Settling m others q) : Settling p (states ++ others) q where
  pairwise := by
    rw [← List.cons_append, List.pairwise_append]
    refine ⟨h.pairwise, (List.pairwise_cons.mp k.pairwise).2, ?_⟩
    intro s hs t ht
    exact (h.last s hs).trans (List.rel_of_pairwise_cons k.pairwise ht)
  last s hs := by
    rw [← List.cons_append] at hs
    rcases List.mem_append.mp hs with hs | hs
    · exact (h.last s hs).trans (k.last m List.mem_cons_self)
    · exact k.last s (List.mem_cons_of_mem m hs)

end Settling

variable {x : Expander} {nested : Nested} {d : Deployment} {plan : Plan}

/-- A turn changes the state of its own declaration at most. -/
theorem Turn.state_of_ne {decl : ResourceDeclaration} {p q : Progress}
    {r : Except ExpandError (Option Settlement)} (h : Turn x nested d plan decl p r q) {o : Nat}
    (ho : o ≠ decl.ordinal) : q.ledger.state o = p.ledger.state o := by
  cases r with
  | error e =>
    cases h
    rfl
  | ok e? =>
    rcases h.changes with ⟨-, hq⟩ | ⟨e, -, -, hs⟩
    · rw [hq]
    · rw [Ledger.state, hs.states, List.getElem?_set_ne (Ne.symm ho), Ledger.state]

theorem Turn.declarations {decl : ResourceDeclaration} {p q : Progress}
    {r : Except ExpandError (Option Settlement)} (h : Turn x nested d plan decl p r q) :
    q.ledger.declarations = p.ledger.declarations := by
  cases r with
  | error e =>
    cases h
    rfl
  | ok e? =>
    rcases h.changes with ⟨-, hq⟩ | ⟨e, -, -, hs⟩
    · rw [hq]
    · exact hs.declarations

theorem Turn.settles {decl : ResourceDeclaration} {p q : Progress}
    {r : Except ExpandError (Option Settlement)} (h : Turn x nested d plan decl p r q)
    (hs : p.ledger.state decl.ordinal = .pending) : Settles p q := by
  intro o ho
  apply h.state_of_ne
  rintro rfl
  exact ho hs

structure Pending (d : Deployment) (p : Progress) (is : List Nat) : Prop where
  declarations : p.ledger.declarations = d.template.resources
  once : is.Nodup
  bound : ∀ i ∈ is, i < d.template.resources.length
  pending : ∀ i ∈ is, p.ledger.state i = .pending

/-- Those that come after a declaration are pending after its turn. -/
theorem Pending.tail {decl : ResourceDeclaration} {p q : Progress} {is : List Nat}
    {r : Except ExpandError (Option Settlement)} (h : Pending d p (decl.ordinal :: is))
    (ht : Turn x nested d plan decl p r q) : Pending d q is where
  declarations := ht.declarations.trans h.declarations
  once := (List.nodup_cons.mp h.once).2
  bound i hi := h.bound i (List.mem_cons_of_mem _ hi)
  pending i hi := by
    rw [ht.state_of_ne (ne_of_mem_of_not_mem hi (List.nodup_cons.mp h.once).1)]
    exact h.pending i (List.mem_cons_of_mem _ hi)

theorem pass_run (x : Expander) (nested : Nested) (plan : Plan) {is : List Nat} {p : Progress}
    (h : Pending d p is)
    (hn : Template.NumberedFrom 0 d.template.resources) :
    ∃ tr r q, PassRun x nested d plan is p tr r q ∧
      outcome (x.pass nested d plan is) p = (r, q) := by
  induction is generalizing p with
  | nil => exact ⟨_, _, _, .nil p, rfl⟩
  | cons i is ih =>
    have hi : i < d.template.resources.length := h.bound i List.mem_cons_self
    have hg : d.template.resources[i]? = some d.template.resources[i] := List.getElem?_eq_getElem hi
    obtain ⟨r, m, ht, hs⟩ := settle_turn x nested d plan d.template.resources[i] p
    unfold pass
    simp only [outcome_bind, outcome_get, h.declarations, hg, hs]
    cases r with
    | error e => exact ⟨_, _, _, .ends hg ht, rfl⟩
    | ok e? =>
      have ho : d.template.resources[i].ordinal = i := hn.ordinal hg
      obtain ⟨tr, r, q, hp, hr⟩ := ih ((ho.symm ▸ h : Pending d p (_ :: is)).tail ht)
      refine ⟨_, _, _, .turn hg ht hp, ?_⟩
      simp only [Except.map, hr]
      cases r with
      | error e => rfl
      | ok deferred => cases e? <;> rfl

namespace PassRun

theorem state_of_notMem {is : List Nat} {p q : Progress} {tr : Trace}
    {r : Except ExpandError (List Nat)} (h : PassRun x nested d plan is p tr r q)
    (hn : Template.NumberedFrom 0 d.template.resources) {o : Nat} (ho : o ∉ is) :
    q.ledger.state o = p.ledger.state o := by
  induction h with
  | nil p => rfl
  | turn hd ht hp ih =>
    rw [List.mem_cons, not_or] at ho
    rw [ih ho.2]
    exact ht.state_of_ne (hn.ordinal hd ▸ ho.1)
  | ends hd ht =>
    rw [List.mem_cons, not_or] at ho
    exact ht.state_of_ne (hn.ordinal hd ▸ ho.1)

theorem settling {is : List Nat} {p q : Progress} {tr : Trace}
    {r : Except ExpandError (List Nat)} (h : PassRun x nested d plan is p tr r q)
    (hn : Template.NumberedFrom 0 d.template.resources) (hi : Pending d p is) :
    Settling p tr.states q := by
  induction h with
  | nil p => exact .nil p
  | turn hd ht hp ih =>
    rw [← hn.ordinal hd] at hi
    exact .cons (ht.settles (hi.pending _ List.mem_cons_self)) (ih (hi.tail ht))
  | ends hd ht =>
    rw [← hn.ordinal hd] at hi
    exact .cons (ht.settles (hi.pending _ List.mem_cons_self)) (.nil _)

/-- The declarations that a pass settles and those that it leaves pending are those that it was to
settle. -/
theorem perm {is deferred : List Nat} {p q : Progress} {tr : Trace}
    (h : PassRun x nested d plan is p tr (.ok deferred) q)
    (hn : Template.NumberedFrom 0 d.template.resources) (hi : Pending d p is) :
    (tr.history.ordinals ++ deferred).Perm is ∧ Pending d q deferred := by
  generalize hr : Except.ok deferred = r at h
  induction h generalizing deferred with
  | nil p =>
    cases hr
    exact ⟨.refl _, hi⟩
  | @turn i is decl p m q e tr r hd ht hp ih =>
    have ho : decl.ordinal = i := hn.ordinal hd
    subst ho
    cases r with
    | error e => cases hr
    | ok others =>
      obtain ⟨hperm, hq⟩ := ih (hi.tail ht) rfl
      rcases ht.changes with ⟨rfl, hm⟩ | ⟨e, rfl, rfl, hs⟩
      · cases hr
        refine ⟨?_, ?_⟩
        · rw [Trace.history_cons]
          exact List.perm_middle.trans (hperm.cons _)
        · have hnot := (List.nodup_cons.mp hi.once).1
          -- no later turn is about it, so that it is pending still
          refine ⟨hq.declarations, ?_, ?_, ?_⟩
          · refine List.nodup_cons.mpr ⟨fun hmem => hnot ?_, hq.once⟩
            exact hperm.subset (List.mem_append_right _ hmem)
          · intro j hj
            rcases List.mem_cons.mp hj with rfl | hj
            · exact hi.bound _ List.mem_cons_self
            · exact hq.bound j hj
          · intro j hj
            rcases List.mem_cons.mp hj with rfl | hj
            · rw [hp.state_of_notMem hn hnot, hm]
              exact hi.pending _ List.mem_cons_self
            · exact hq.pending j hj
      · cases hr
        refine ⟨?_, hq⟩
        rw [Trace.history_cons]
        exact hperm.cons _
  | ends hd ht => cases hr

theorem length_eq {is deferred : List Nat} {p q : Progress} {tr : Trace}
    (h : PassRun x nested d plan is p tr (.ok deferred) q)
    (hn : Template.NumberedFrom 0 d.template.resources) (hi : Pending d p is) :
    tr.history.length + deferred.length = is.length := by
  simpa [History.ordinals] using (h.perm hn hi).1.length_eq

theorem reached {p₀ : Progress} {is : List Nat} {p q : Progress} {tr : Trace} {h : History}
    {r : Except ExpandError (List Nat)} (hr : PassRun x nested d plan is p tr r q)
    (hn : Template.NumberedFrom 0 d.template.resources) (hi : Pending d p is)
    (hp : Reached x nested d plan p₀ h p) :
    Reached x nested d plan p₀ (h ++ tr.history) q ∧
      ∀ s ∈ tr.states, ∃ k, Reached x nested d plan p₀ k s := by
  induction hr generalizing h with
  | nil p =>
    rw [Trace.history, List.filterMap_nil, List.append_nil]
    exact ⟨hp, by simp [Trace.states]⟩
  | @turn i is decl p m q e tr r hd ht _ ih =>
    rw [← hn.ordinal hd] at hi
    have hm := Reached.turn hp (List.mem_of_getElem? hd) (hi.pending _ List.mem_cons_self) ht
    obtain ⟨hq, hs⟩ := ih (hi.tail ht) hm
    rw [Trace.history_cons, ← List.append_assoc]
    refine ⟨hq, ?_⟩
    intro s hmem
    rcases List.mem_cons.mp hmem with rfl | hmem
    · exact ⟨_, hm⟩
    · exact hs s hmem
  | @ends i is decl p q e hd ht =>
    rw [← hn.ordinal hd] at hi
    have hq := Reached.ends hp (List.mem_of_getElem? hd) (hi.pending _ List.mem_cons_self) ht
    rw [Trace.history_cons, Option.toList_none, List.nil_append, Trace.history,
      List.filterMap_nil, List.append_nil]
    refine ⟨hq, ?_⟩
    intro s hs
    rw [List.mem_singleton.mp hs]
    exact ⟨_, hq⟩

theorem after_eq {is : List Nat} {p q : Progress} {tr : Trace} {r : Except ExpandError (List Nat)}
    (h : PassRun x nested d plan is p tr r q) : tr.after p = q := by
  induction h with
  | nil p => rfl
  | turn hd ht hp ih => exact ih
  | ends hd ht => rfl

/-- Each step of a pass is the turn of a declaration after those before it. -/
theorem turn_at {is : List Nat} {p q : Progress} {tr before after : Trace} {step : Step}
    {r : Except ExpandError (List Nat)} (h : PassRun x nested d plan is p tr r q)
    (hs : tr = before ++ step :: after) :
    ∃ decl r, Turn x nested d plan decl (before.after p) r step.after ∧
      step.settled? = r.toOption.join := by
  induction h generalizing before with
  | nil p => cases before <;> cases hs
  | @turn i is decl p m q e tr r hd ht hp ih =>
    cases before with
    | nil =>
      cases hs
      exact ⟨decl, _, ht, rfl⟩
    | cons first before =>
      obtain ⟨rfl, htail⟩ := List.cons.inj hs
      exact ih htail
  | @ends i is decl p q e hd ht =>
    cases before with
    | nil =>
      cases hs
      exact ⟨decl, _, ht, rfl⟩
    | cons first before =>
      obtain ⟨-, htail⟩ := List.cons.inj hs
      cases before <;> cases htail

end PassRun

/-- The passes over pending declarations are a run of the loop, of as many passes as there are
declarations at most, whatever bound the passes are given beyond that. -/
theorem passes_loop (x : Expander) (nested : Nested) (plan : Plan) {is : List Nat} {p : Progress}
    (h : Pending d p is)
    (hn : Template.NumberedFrom 0 d.template.resources) :
    ∃ n tr r q, n ≤ is.length ∧ Loop x nested d plan n is p tr r q ∧
      ∀ fuel, is.length ≤ fuel → outcome (x.passes nested d plan fuel is) p = (r, q) := by
  induction hl : is.length using Nat.strongRecOn generalizing is p with
  | ind l ih =>
    subst hl
    cases is with
    | nil =>
      refine ⟨_, _, _, _, Nat.le_refl 0, .done p, ?_⟩
      intro fuel _
      cases fuel <;> rfl
    | cons i is =>
      obtain ⟨tr, r, m, hp, hr⟩ := pass_run x nested plan h hn
      have hne : i :: is ≠ [] := List.cons_ne_nil i is
      cases r with
      | error e =>
        refine ⟨1, tr, .error e, m, Nat.succ_pos _, .ends hne hp, ?_⟩
        intro fuel hf
        obtain ⟨fuel, rfl⟩ := Nat.exists_eq_add_one_of_ne_zero (Nat.ne_zero_of_lt hf)
        unfold passes
        simp [outcome_bind, hr]
      | ok deferred =>
        have hm := (hp.perm hn h).2
        have hlen : tr.history.length + deferred.length = is.length + 1 := hp.length_eq hn h
        -- as many deferred as given means none settled, and fewer is what the induction is on
        by_cases hd : deferred.length = is.length + 1
        · refine ⟨1, tr, _, m, Nat.succ_pos _, .stalls hne hp ?_ ?_, ?_⟩
          · exact List.eq_nil_of_length_eq_zero (by omega)
          · exact List.ne_nil_of_length_pos (by omega)
          · intro fuel hf
            obtain ⟨fuel, rfl⟩ := Nat.exists_eq_add_one_of_ne_zero (Nat.ne_zero_of_lt hf)
            unfold passes
            simp [outcome_bind, hr, hd]
        · have hlt : deferred.length < (i :: is).length := by
            rw [List.length_cons]
            omega
          obtain ⟨n, ur, r, q, hle, hl, ho⟩ := ih _ hlt hm rfl
          refine ⟨n + 1, tr ++ ur, r, q, by omega, .again hne hp ?_ hl, ?_⟩
          · exact .inl (List.ne_nil_of_length_pos (by omega))
          · intro fuel hf
            obtain ⟨fuel, rfl⟩ := Nat.exists_eq_add_one_of_ne_zero (Nat.ne_zero_of_lt hf)
            unfold passes
            simp only [outcome_bind, hr, if_neg hd]
            exact ho fuel (by rw [List.length_cons] at hf; omega)

namespace Loop

theorem settling {n : Nat} {is : List Nat} {p q : Progress} {tr : Trace}
    {r : Except ExpandError Unit} (h : Loop x nested d plan n is p tr r q)
    (hn : Template.NumberedFrom 0 d.template.resources) (hi : Pending d p is) :
    Settling p tr.states q := by
  induction h with
  | done p => exact .nil p
  | ends hne hp => exact hp.settling hn hi
  | stalls hne hp hh hd => exact hp.settling hn hi
  | again hne hp hh hl ih =>
    rw [Trace.states_append]
    exact (hp.settling hn hi).append (ih (hp.perm hn hi).2)

theorem reached {p₀ : Progress} {n : Nat} {is : List Nat} {p q : Progress} {tr : Trace}
    {h : History} {r : Except ExpandError Unit} (hr : Loop x nested d plan n is p tr r q)
    (hn : Template.NumberedFrom 0 d.template.resources) (hi : Pending d p is)
    (hp : Reached x nested d plan p₀ h p) :
    Reached x nested d plan p₀ (h ++ tr.history) q ∧
      ∀ s ∈ tr.states, ∃ k, Reached x nested d plan p₀ k s := by
  induction hr generalizing h with
  | done p =>
    rw [Trace.history, List.filterMap_nil, List.append_nil]
    exact ⟨hp, by simp [Trace.states]⟩
  | ends hne hr => exact hr.reached hn hi hp
  | stalls hne hr hh hd => exact hr.reached hn hi hp
  | again hne hr hh hl ih =>
    obtain ⟨hm, hs⟩ := hr.reached hn hi hp
    obtain ⟨hq, hs'⟩ := ih (hr.perm hn hi).2 hm
    rw [Trace.history_append, ← List.append_assoc, Trace.states_append]
    refine ⟨hq, ?_⟩
    intro s hmem
    rcases List.mem_append.mp hmem with hmem | hmem
    · exact hs s hmem
    · exact hs' s hmem

/-- Each step of a run is the turn of a declaration after those before it. -/
theorem turn_at {n : Nat} {is : List Nat} {p q : Progress} {tr before after : Trace} {step : Step}
    {r : Except ExpandError Unit} (h : Loop x nested d plan n is p tr r q)
    (hs : tr = before ++ step :: after) :
    ∃ decl r, Turn x nested d plan decl (before.after p) r step.after ∧
      step.settled? = r.toOption.join := by
  induction h generalizing before with
  | done p => cases before <;> cases hs
  | ends hne hp => exact hp.turn_at hs
  | stalls hne hp hh hd => exact hp.turn_at hs
  | again hne hp hh hl ih =>
    rcases List.append_eq_append_iff.mp hs with ⟨others, rfl, hur⟩ | ⟨others, rfl, hur⟩
    · rw [Trace.after_append, hp.after_eq]
      exact ih hur
    · cases others with
      | nil =>
        rw [List.append_nil] at hp
        have hnil : _ = ([] : Trace) ++ step :: after := hur.symm
        rw [hp.after_eq]
        exact ih hnil
      | cons first others =>
        obtain ⟨rfl, -⟩ := List.cons.inj hur
        exact hp.turn_at rfl

/-- A run that comes to its end has settled each declaration once. -/
theorem perm {n : Nat} {is : List Nat} {p q : Progress} {tr : Trace}
    (h : Loop x nested d plan n is p tr (.ok ()) q)
    (hn : Template.NumberedFrom 0 d.template.resources) (hi : Pending d p is) :
    tr.history.ordinals.Perm is := by
  generalize hr : Except.ok () = r at h
  induction h with
  | done p => exact .refl _
  | ends hne hp => cases hr
  | stalls hne hp hh hd => cases hr
  | again hne hp hh hl ih =>
    obtain ⟨hperm, hm⟩ := hp.perm hn hi
    have hu := ih hm hr
    rw [Trace.history_append, History.ordinals, List.map_append]
    exact (hu.append_left _).trans hperm

end Loop

theorem Unsettled.pending {p : Progress} (h : Unsettled d p) (hp : Planned d p.ledger plan) :
    Pending d p plan.order where
  declarations := h.declarations
  once := hp.order.nodup_iff.mpr List.nodup_range
  bound i hi := List.mem_range.mp (hp.order.mem_iff.mp hi)
  pending i _ := by
    rw [Ledger.state, h.states, List.getElem?_map]
    cases d.template.resources[i]? <;> rfl

/-- Where the declarations of a template are settled is reached by turns. -/
theorem settleAll_reached (x : Expander) (nested : Nested) {v : Json} {s : Scope} {p₀ : Progress}
    (ht : Template.ofJson v = .ok d.template)
    (h₀ : outcome (prepare d) (.start s d.template.resources) = (.ok plan, p₀)) :
    ∃ h, Reached x nested d plan p₀ h (outcome (x.settleAll nested d plan) p₀).2 := by
  have hn := Template.ofJson_numbered ht
  obtain ⟨hu, hp⟩ := prepare_ok hn h₀
  obtain ⟨n, tr, r, q, -, hl, ho⟩ := passes_loop x nested plan (hu.pending hp) hn
  unfold settleAll
  rw [ho _ (Nat.le_refl _)]
  exact ⟨_, (hl.reached hn (hu.pending hp) .start).1⟩

/-- The loop over the declarations of a template takes no more passes than there are declarations,
however its expressions evaluate. What is settled at some time stays as it is; when the loop succeeds,
every declaration was committed or failed, and none of them twice. -/
theorem settleAll_terminates (x : Expander) (nested : Nested) {v : Json} {s : Scope}
    {p₀ : Progress} (ht : Template.ofJson v = .ok d.template)
    (h₀ : outcome (prepare d) (.start s d.template.resources) = (.ok plan, p₀)) :
    ∃ n tr r q, n ≤ d.template.resources.length ∧ Loop x nested d plan n plan.order p₀ tr r q ∧
      outcome (x.settleAll nested d plan) p₀ = (r, q) ∧
      (∀ fuel, plan.order.length ≤ fuel →
        outcome (x.passes nested d plan fuel plan.order) p₀ = (r, q)) ∧
      (p₀ :: tr.states).Pairwise Settles ∧
      (∀ e ∈ tr.history, q.ledger.state e.ordinal = e.state ∧ e.state ≠ .pending) ∧
      tr.history.ordinals.Nodup ∧
      (r = .ok () → tr.history.ordinals.Perm (List.range d.template.resources.length) ∧
        ∀ o < d.template.resources.length, q.ledger.state o ≠ .pending) := by
  have hn := Template.ofJson_numbered ht
  obtain ⟨hu, hp⟩ := prepare_ok hn h₀
  have hi := hu.pending hp
  obtain ⟨n, tr, r, q, hle, hl, ho⟩ := passes_loop x nested plan hi hn
  have hq := ((hl.reached hn hi .start).1).recorded hu
  rw [List.nil_append] at hq
  refine ⟨n, tr, r, q, ?_, hl, ho _ (Nat.le_refl _), ho, (hl.settling hn hi).pairwise, ?_, hq.once, ?_⟩
  · simpa [hp.order.length_eq] using hle
  · exact fun e he => ⟨hq.state_of_mem he, e.state_ne_pending⟩
  · intro hr
    subst hr
    have hperm := (hl.perm hn hi).trans hp.order
    refine ⟨hperm, ?_⟩
    intro o hlt
    exact (hq.mem_ordinals_iff o).mp (hperm.mem_iff.mpr (List.mem_range.mpr hlt))

/-- The first of two resources refers to the second, which is expanded before it. -/
def forwardReference : Json := .obj
  [("resources", .arr
    [.obj [("type", .str "A/b"), ("name", .str "x"), ("tags", .str "[reference('y')]")],
     .obj [("type", .str "A/b"), ("name", .str "y")]])]

theorem settleAll_terminates_forwardReference :
    ∃ d plan p₀, Template.ofJson forwardReference = .ok d.template ∧
      outcome (prepare d) (.start {} d.template.resources) = (.ok plan, p₀) ∧
      ∃ n tr r q, n ≤ d.template.resources.length ∧
        Loop small small.refuseNested d plan n plan.order p₀ tr r q ∧
        outcome (small.settleAll small.refuseNested d plan) p₀ = (r, q) := by
  have hp : (prepared? small.options forwardReference).isSome := by decide +kernel
  obtain ⟨⟨d, plan, p₀⟩, h⟩ := Option.isSome_iff_exists.mp hp
  obtain ⟨ht, h₀⟩ := prepared?_eq_some h
  obtain ⟨n, tr, r, q, hn, hl, ho, -⟩ := settleAll_terminates small small.refuseNested ht h₀
  exact ⟨d, plan, p₀, ht, h₀, n, tr, r, q, hn, hl, ho⟩

end ResourceTemplate.Expander
