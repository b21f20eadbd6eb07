import ResourceTemplate.Proofs.Expander.Waiting

namespace ResourceTemplate.Expander

variable {x : Expander} {nested : Nested} {d : Deployment} {plan : Plan} {p₀ : Progress}

/-- The loop over pending declarations comes to a pass that settles none of those that are left: they,
and the progress before and after that pass. -/
inductive Stalls (x : Expander) (nested : Nested) (d : Deployment) (plan : Plan) :
    List Nat → Progress → List Nat → Progress → Progress → Prop where
  | here {is : List Nat} {p q : Progress} (hn : is ≠ [])
      (hp : outcome (x.pass nested d plan is) p = (.ok is, q)) :
      Stalls x nested d plan is p is p q
  | later {is deferred waiting : List Nat} {p m s q : Progress}
      (hp : outcome (x.pass nested d plan is) p = (.ok deferred, m))
      (hl : deferred.length < is.length) (hs : Stalls x nested d plan deferred m waiting s q) :
      Stalls x nested d plan is p waiting s q

namespace Stalls

theorem outcome_passes {is waiting : List Nat} {p s q : Progress}
    (h : Stalls x nested d plan is p waiting s q) {fuel : Nat} (hf : is.length ≤ fuel) :
    outcome (x.passes nested d plan fuel is) p = (.error (waitingError q.ledger waiting), q) := by
  induction h generalizing fuel with
  | @here is p q hn hp =>
    cases is with
    | nil => exact absurd rfl hn
    | cons i is =>
      obtain ⟨fuel, rfl⟩ := Nat.exists_eq_add_one_of_ne_zero (Nat.ne_zero_of_lt hf)
      unfold passes
      simp [outcome_bind, hp]
  | @later is deferred waiting p m s q hp hl hs ih =>
    cases is with
    | nil => cases hl
    | cons i is =>
      obtain ⟨fuel, rfl⟩ := Nat.exists_eq_add_one_of_ne_zero (Nat.ne_zero_of_lt hf)
      rw [List.length_cons] at hl hf
      unfold passes
      simp only [outcome_bind, hp, if_neg (Nat.ne_of_lt hl)]
      exact ih (by omega)

/-- What is left where a loop stalls is what the turns before did not settle. -/
theorem reached {is waiting : List Nat} {p s q : Progress} {h : History}
    (hs : Stalls x nested d plan is p waiting s q)
    (hn : Template.NumberedFrom 0 d.template.resources) (hi : Pending d p is)
    (hp : Reached x nested d plan p₀ h p) {all : List Nat} (ha : (h.ordinals ++ is).Perm all) :
    ∃ k, Reached x nested d plan p₀ k s ∧ Pending d s waiting ∧ (k.ordinals ++ waiting).Perm all ∧
      waiting ≠ [] ∧ outcome (x.pass nested d plan waiting) s = (.ok waiting, q) := by
  induction hs generalizing h with
  | here hne ho => exact ⟨h, hp, hi, ha, hne, ho⟩
  | later ho hl hs ih =>
    obtain ⟨tr, r, m, hr, hm⟩ := pass_run x nested plan hi hn
    rw [ho] at hm
    cases hm
    obtain ⟨hperm, hd⟩ := hr.perm hn hi
    refine ih hd (hr.reached hn hi hp).1 ?_
    rw [History.ordinals, List.map_append, List.append_assoc]
    exact (hperm.append_left _).trans ha

end Stalls

theorem PassRun.ended {is : List Nat} {p q : Progress} {tr : Trace} {h : History} {e : ExpandError}
    (hr : PassRun x nested d plan is p tr (.error e) q)
    (hn : Template.NumberedFrom 0 d.template.resources) (hi : Pending d p is)
    (hp : Reached x nested d plan p₀ h p) :
    ∃ k s decl, Reached x nested d plan p₀ k s ∧ decl ∈ d.template.resources ∧
      s.ledger.state decl.ordinal = .pending ∧ Turn x nested d plan decl s (.error e) q := by
  generalize hf : Except.error e = r at hr
  induction hr generalizing h with
  | nil p => cases hf
  | @turn i is decl p m q e' tr r hd ht hr ih =>
    rw [← hn.ordinal hd] at hi
    cases r with
    | error e =>
      cases hf
      have hm := Reached.turn hp (List.mem_of_getElem? hd) (hi.pending _ List.mem_cons_self) ht
      exact ih (hi.tail ht) hm rfl
    | ok deferred => cases hf
  | @ends i is decl p q e' hd ht =>
    cases hf
    rw [← hn.ordinal hd] at hi
    exact ⟨h, p, decl, hp, List.mem_of_getElem? hd, hi.pending _ List.mem_cons_self, ht⟩

/-- A loop fails because a turn ends the expansion, or because it stalls. -/
theorem passes_fails {is : List Nat} {p q : Progress} {h : History} {e : ExpandError} {fuel : Nat}
    (hn : Template.NumberedFrom 0 d.template.resources) (hi : Pending d p is)
    (hp : Reached x nested d plan p₀ h p)
    (ho : outcome (x.passes nested d plan fuel is) p = (.error e, q)) :
    (∃ k s decl, Reached x nested d plan p₀ k s ∧ decl ∈ d.template.resources ∧
      s.ledger.state decl.ordinal = .pending ∧ Turn x nested d plan decl s (.error e) q) ∨
    ∃ waiting s, Stalls x nested d plan is p waiting s q := by
  induction fuel generalizing is p h with
  | zero => cases is <;> cases ho
  | succ fuel ih =>
    cases is with
    | nil => cases ho
    | cons i is =>
      obtain ⟨tr, r, m, hr, hm⟩ := pass_run x nested plan hi hn
      unfold passes at ho
      simp only [outcome_bind, hm] at ho
      cases r with
      | error e =>
        cases ho
        exact .inl (hr.ended hn hi hp)
      | ok deferred =>
        have hd := (hr.perm hn hi).2
        have hlen : tr.history.length + deferred.length = is.length + 1 := hr.length_eq hn hi
        by_cases hl : deferred.length = is.length + 1
        · simp only [if_pos hl, outcome_bind, outcome_get] at ho
          cases ho
          have hh : tr.history = [] := List.eq_nil_of_length_eq_zero (by omega)
          obtain ⟨rfl, -⟩ := hr.stalled hh
          exact .inr ⟨_, p, .here (List.cons_ne_nil i is) hm⟩
        · simp only [if_neg hl] at ho
          rcases ih hd (hr.reached hn hi hp).1 ho with ht | ⟨waiting, s, hs⟩
          · exact .inl ht
          · refine .inr ⟨waiting, s, .later hm ?_ hs⟩
            rw [List.length_cons]
            omega

/-- One of several declarations waits for another of them in one of several progresses. -/
def WaitsAmong (x : Expander) (nested : Nested) (d : Deployment) (plan : Plan)
    (states : List Progress) (waiting : List Nat) (i j : Nat) : Prop :=
  i ∈ waiting ∧ j ∈ waiting ∧ ∃ s ∈ states, WaitsFor x nested d plan s i j

theorem mem_waiting_iff {h : History} {p : Progress} {waiting : List Nat}
    (hr : Recorded d p₀.ledger.known h p)
    (ha : (h.ordinals ++ waiting).Perm (List.range d.template.resources.length)) (i : Nat) :
    i ∈ waiting ↔ i < d.template.resources.length ∧ p.ledger.state i = .pending := by
  have hi : i < d.template.resources.length ↔ i ∈ h.ordinals ∨ i ∈ waiting := by
    rw [← List.mem_range, ← ha.mem_iff, List.mem_append]
  constructor
  · intro hw
    refine ⟨hi.mpr (.inr hw), ?_⟩
    by_contra hs
    have ho : i ∈ h.ordinals := (hr.mem_ordinals_iff i).mpr hs
    exact List.disjoint_of_nodup_append (ha.nodup_iff.mpr List.nodup_range) ho hw
  · rintro ⟨hlt, hs⟩
    rcases hi.mp hlt with ho | hw
    · exact absurd hs ((hr.mem_ordinals_iff i).mp ho)
    · exact hw

/-- In a pass that settles nothing each declaration waits for another. -/
theorem waits_in_pass {depth : Nat} {h : History} {p q : Progress} {waiting : List Nat}
    (hu : Unsettled d p₀) (hp : Planned d p₀.ledger plan)
    (hr : Reached x (x.nestedAt depth) d plan p₀ h p) (hi : Pending d p waiting)
    (ha : (h.ordinals ++ waiting).Perm (List.range d.template.resources.length))
    (ho : outcome (x.pass (x.nestedAt depth) d plan waiting) p = (.ok waiting, q)) :
    ∃ tr, PassRun x (x.nestedAt depth) d plan waiting p tr (.ok waiting) q ∧
      (∀ s ∈ p :: tr.states, q = { s with scope := q.scope }) ∧
      ∀ i ∈ waiting, ∃ j, WaitsAmong x (x.nestedAt depth) d plan (p :: tr.states) waiting i j := by
  obtain ⟨tr, r, m, hrun, hm⟩ := pass_run x (x.nestedAt depth) plan hi hu.numbered
  rw [ho] at hm
  cases hm
  -- a pass that gives back all that it was given has settled none of them
  have hh : tr.history = [] := by
    have hlen := hrun.length_eq hu.numbered hi
    exact List.eq_nil_of_length_eq_zero (by omega)
  obtain ⟨-, hsame, hturns⟩ := hrun.stalled hh
  refine ⟨tr, hrun, hsame, ?_⟩
  intro i hw
  obtain ⟨decl, hd, s, hs, t, ht⟩ := hturns i hw
  obtain ⟨k, hk⟩ : ∃ k, Reached x (x.nestedAt depth) d plan p₀ k s := by
    rcases List.mem_cons.mp hs with rfl | hs
    · exact ⟨h, hr⟩
    · exact (hrun.reached hu.numbered hi hr).2 s hs
  obtain ⟨j, hj⟩ := ht.waitsFor hu.numbered hd (hk.grounded hu)
  -- what is pending when a declaration is tried is pending at the start of the pass
  have hl : s.ledger = p.ledger := by
    have hp := congrArg Progress.ledger (hsame p List.mem_cons_self)
    exact (congrArg Progress.ledger (hsame s hs)).symm.trans hp
  have hjw : j ∈ waiting :=
    (mem_waiting_iff (hr.recorded hu) ha j).mpr
      ⟨hj.lt hu hp (hk.recorded hu), hl ▸ hj.state⟩
  exact ⟨j, hw, hjw, s, hs, hj⟩

/-- The loop over the declarations of a template fails because a turn ends the expansion, or because it
comes to a pass that settles nothing. Then it names those that are pending. In that pass each of them
waits for another, some wait in a circle, and no order puts each after those that it waits for. -/
theorem settleAll_stalls (x : Expander) (depth : Nat) {v : Json} {s₀ : Scope}
    (ht : Template.ofJson v = .ok d.template)
    (h₀ : outcome (prepare d) (.start s₀ d.template.resources) = (.ok plan, p₀)) :
    (∀ e q, outcome (x.settleAll (x.nestedAt depth) d plan) p₀ = (.error e, q) →
      (∃ h p decl, Reached x (x.nestedAt depth) d plan p₀ h p ∧ decl ∈ d.template.resources ∧
        p.ledger.state decl.ordinal = .pending ∧
        Turn x (x.nestedAt depth) d plan decl p (.error e) q) ∨
      ∃ waiting p, Stalls x (x.nestedAt depth) d plan plan.order p₀ waiting p q) ∧
    ∀ waiting p q, Stalls x (x.nestedAt depth) d plan plan.order p₀ waiting p q →
      outcome (x.settleAll (x.nestedAt depth) d plan) p₀ =
        (.error (waitingError q.ledger waiting), q) ∧
      waiting ≠ [] ∧
      (∀ i, i ∈ waiting ↔ i < d.template.resources.length ∧ q.ledger.state i = .pending) ∧
      ∃ tr, PassRun x (x.nestedAt depth) d plan waiting p tr (.ok waiting) q ∧
        (∀ s ∈ p :: tr.states, q = { s with scope := q.scope }) ∧
        (∀ i ∈ waiting, ∃ j,
          WaitsAmong x (x.nestedAt depth) d plan (p :: tr.states) waiting i j) ∧
        (∃ i ∈ waiting, Relation.TransGen
          (WaitsAmong x (x.nestedAt depth) d plan (p :: tr.states) waiting) i i) ∧
        ∀ before : Nat → Nat → Prop, IsStrictOrder Nat before → ∃ i j,
          WaitsAmong x (x.nestedAt depth) d plan (p :: tr.states) waiting i j ∧ ¬ before j i := by
  have hn := Template.ofJson_numbered ht
  obtain ⟨hu, hp⟩ := prepare_ok hn h₀
  have hi := hu.pending hp
  refine ⟨fun e q ho => passes_fails hn hi .start ho, ?_⟩
  intro waiting p q hs
  obtain ⟨h, hr, hw, ha, hne, ho⟩ := hs.reached hn hi .start hp.order
  obtain ⟨tr, hrun, hsame, hwaits⟩ := waits_in_pass hu hp hr hw ha ho
  obtain ⟨i, hm, hc⟩ := exists_transGen_self hne fun i hi =>
    have ⟨j, hj⟩ := hwaits i hi
    ⟨j, hj.2.1, hj⟩
  refine ⟨hs.outcome_passes (Nat.le_refl _), hne, ?_, tr, hrun, hsame, hwaits, ⟨i, hm, hc⟩, ?_⟩
  · have hl : q.ledger = p.ledger := by rw [hsame p List.mem_cons_self]
    rw [hl]
    exact mem_waiting_iff (hr.recorded hu) ha
  · intro before hb
    by_contra hall
    push Not at hall
    -- the order turns a circle of waiting into one of its own
    have hbefore : ∀ {j}, Relation.TransGen
        (WaitsAmong x (x.nestedAt depth) d plan (p :: tr.states) waiting) i j → before j i := by
      intro j hj
      induction hj with
      | single hij => exact hall i _ hij
      | tail _ hjk ih => exact hb.trans _ _ _ (hall _ _ hjk) ih
    exact hb.irrefl i (hbefore hc)

def mutualReference : Json := .obj
  [("resources", .arr
    [.obj [("type", .str "A/b"), ("name", .str "x"), ("tags", .str "[reference('y')]")],
     .obj [("type", .str "A/b"), ("name", .str "y"), ("tags", .str "[reference('x')]")]])]

theorem settleAll_stalls_mutualReference :
    ∃ d plan p₀ q, Template.ofJson mutualReference = .ok d.template ∧
      outcome (prepare d) (.start {} d.template.resources) = (.ok plan, p₀) ∧
      Stalls small (small.nestedAt 0) d plan plan.order p₀ plan.order p₀ q ∧
      outcome (small.settleAll (small.nestedAt 0) d plan) p₀ =
        (.error (waitingError q.ledger plan.order), q) ∧
      ∃ states, ∃ i ∈ plan.order,
        Relation.TransGen (WaitsAmong small (small.nestedAt 0) d plan states plan.order) i i := by
  have hc : prepares small.options mutualReference fun d plan p₀ =>
      plan.order ≠ [] &&
        (outcome (small.pass (small.nestedAt 0) d plan plan.order) p₀).1.toOption =
          some plan.order := by
    decide +kernel
  obtain ⟨d, plan, p₀, ht, h₀, hc⟩ := exists_of_prepares hc
  simp only [Bool.and_eq_true, decide_eq_true_eq] at hc
  obtain ⟨hne, ho⟩ := hc
  have hs : Stalls small (small.nestedAt 0) d plan plan.order p₀ plan.order p₀ _ :=
    .here hne (Prod.ext (toOption_eq_some.mp ho) rfl)
  obtain ⟨hf, -, -, tr, -, -, -, hcycle, -⟩ := (settleAll_stalls small 0 ht h₀).2 _ _ _ hs
  exact ⟨d, plan, p₀, _, ht, h₀, hs, hf, _, hcycle⟩

end ResourceTemplate.Expander
