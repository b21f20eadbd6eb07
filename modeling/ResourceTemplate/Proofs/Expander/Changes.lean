import ResourceTemplate.Proofs.Deployment.Changes
import ResourceTemplate.Proofs.Expander.Evaluation
import ResourceTemplate.Proofs.Expander.History

namespace ResourceTemplate

namespace Expander

variable {x : Expander} {nested : Nested} {d : Deployment} {plan : Plan} {p₀ : Progress}

theorem attempt_steady {R : Scope → Scope → Prop} (h : EvalSteady d R) (x : Expander) (nested : Nested)
    (plan : Plan) (decl : ResourceDeclaration) (p : Progress) :
    R p.scope (x.attempt nested d plan decl p).2 :=
  obeys_expandInstances (h.evalObeys p.ledger) (h.runNested nested) _ decl p.scope

/-- The instances of a declaration are expanded at each of its indices. -/
theorem expandInstances_eq (x : Expander) (nested : Nested) (d : Deployment) (l : Ledger) (dependsOn : List String)
    (decl : ResourceDeclaration) :
    x.expandInstances nested d l dependsOn decl =
      (do
        let n ← d.instanceCount l decl
        (List.range n).mapM fun i =>
          decl.inLoop i (x.expandInstance nested d l dependsOn decl (decl.copy.map fun _ => i))) := by
  unfold expandInstances Deployment.instanceCount ResourceDeclaration.inLoop
  cases decl.copy with
  | none => simp
  | some copy => rfl

/-- Each instance of an attempt is expanded from a scope that evaluation leads to. -/
theorem attempt_at {R : Scope → Scope → Prop} (h : EvalSteady d R) {decl : ResourceDeclaration} {p : Progress}
    {instances : List Instance} {s : Scope} (ha : x.attempt nested d plan decl p = (.ok instances, s)) {i : Nat}
    {inst : Instance} (hi : instances[i]? = some inst) :
    ∃ n t u v, outcome (d.instanceCount p.ledger decl) p.scope = (.ok n, t) ∧ i < n ∧ R p.scope u ∧
      outcome (decl.inLoop i (x.expandInstance nested d p.ledger (awaitedIds plan p decl) decl
        (decl.copy.map fun _ => i))) u = (.ok inst, v) := by
  unfold attempt at ha
  rw [expandInstances_eq] at ha
  obtain ⟨n, t, hcount, ha⟩ := outcome_bind_eq_ok.mp ha
  have hE := h.evalObeys p.ledger
  have ht : R p.scope t := by
    have hstep : R p.scope (outcome (d.instanceCount p.ledger decl) p.scope).2 := hE.instanceCount decl p.scope
    rwa [hcount] at hstep
  have hinst (i : Nat) := hE.surrounds.inLoop (obeys_expandInstance (x := x) hE (h.runNested nested)
    (awaitedIds plan p decl) decl (decl.copy.map fun _ => i)) decl i
  obtain ⟨j, u, v, hj, hu, hv⟩ := outcome_mapM_at h.toFrame hinst ha hi
  obtain ⟨hn, rfl⟩ : i < n ∧ i = j := by
    obtain ⟨hn, hj⟩ := List.getElem?_eq_some_iff.mp hj
    rw [List.length_range] at hn
    rw [List.getElem_range] at hj
    exact ⟨hn, hj⟩
  exact ⟨n, t, u, v, hcount, hn, h.trans _ _ _ ht hu, hv⟩

theorem AttemptFails.steady {R : Scope → Scope → Prop} (h : EvalSteady d R) {decl : ResourceDeclaration}
    {p : Progress} {e : ExpandError} {s : Scope} (hf : AttemptFails x nested d plan decl p e s) :
    R p.scope s :=
  hf.scope_eq ▸ attempt_steady h x nested plan decl p

/-- A turn changes the scope as evaluation does, and adds diagnostics. -/
theorem Turn.steady {R : Scope → Scope → Prop} (h : EvalSteady d R)
    (hd : ∀ s diagnostics, R s { s with diagnostics }) {decl : ResourceDeclaration} {p q : Progress}
    {r : Except ExpandError (Option Settlement)} (ht : Turn x nested d plan decl p r q) :
    R p.scope q.scope := by
  cases ht with
  | waits _ => exact h.refl _
  | dependencyFailed dependency _ => exact h.report _ _ _ _
  | commits instances s _ _ ha hc =>
    have hs := attempt_steady h x nested plan decl p
    rw [ha] at hs
    obtain ⟨diagnostics, hq⟩ := Progress.commit_scope hc
    rw [hq]
    exact h.trans _ _ _ hs (hd s diagnostics)
  | refers e s _ ha _ _ => exact ha.steady h
  | fails e s _ ha _ _ => exact h.trans _ _ _ (ha.steady h) (h.report _ _ _ _)
  | ends e s _ ha _ => exact ha.steady h

/-- The scope that an expansion starts from and every scope that it reaches are related. -/
theorem Reached.steady {R : Scope → Scope → Prop} (h : EvalSteady d R)
    (hd : ∀ s diagnostics, R s { s with diagnostics }) {k : History} {p : Progress}
    (hr : Reached x nested d plan p₀ k p) : R p₀.scope p.scope := by
  induction hr with
  | start => exact h.refl _
  | turn hp hm hs ht ih => exact h.trans _ _ _ ih (ht.steady h hd)
  | ends hp hm hs ht ih => exact h.trans _ _ _ ih (ht.steady h hd)

/-- The part of a progress that is its scope changes as a relation allows. -/
theorem frame_scope {R : Scope → Scope → Prop} (h : Frame R) :
    Frame fun p q : Progress => R p.scope q.scope where
  refl p := h.refl p.scope
  trans p q u := h.trans p.scope q.scope u.scope

theorem declareSymbols_scope {p q : Progress} (h : declareSymbols p = .ok q) : q.scope = p.scope := by
  unfold declareSymbols at h
  cases hs : p.ledger.declarations.foldlM declareSymbol p.ledger.symbols with
  | error fault =>
    rw [hs] at h
    cases h
  | ok symbols =>
    rw [hs] at h
    cases h
    rfl

theorem obeys_onScope {R : Scope → Scope → Prop} {hR : Frame R} {α : Type} {m : ScopeM α}
    (hm : (changing hR : Discipline ExpandError Scope).Obeys m) :
    (changing (frame_scope hR) : Discipline ExpandError Progress).Obeys (ExpandM.onScope m) :=
  fun p => hm p.scope

section
variable {R : Scope → Scope → Prop} {hR : Frame R} (h : ∀ l, d.EvalObeys l (changing hR) (changing hR))
include h

/-- To learn the identities of a declaration changes the scope as evaluation does. -/
theorem obeys_learnIdentities (decl : ResourceDeclaration) :
    (changing (frame_scope hR) : Discipline ExpandError Progress).Obeys (learnIdentities d decl) :=
  Discipline.Obeys.get.bind fun q =>
    (obeys_onScope ((h q.ledger).previews.previewIdentities decl)).bind fun _ _ => hR.refl _

/-- What is done before a declaration is tried changes the scope as evaluation does. -/
theorem obeys_prepare : (changing (frame_scope hR) : Discipline ExpandError Progress).Obeys (prepare d) := by
  have declares : (changing (frame_scope hR) : Discipline ExpandError Progress).Obeys
      (ExpandM.change declareSymbols) := by
    intro p
    rw [ExpandM.outcome_change]
    cases hp : declareSymbols p with
    | error e => exact hR.refl _
    | ok q => exact declareSymbols_scope hp ▸ hR.refl _
  exact declares.bind fun _ => (Discipline.Obeys.forM (obeys_learnIdentities h) _).bind fun _ =>
    Discipline.Obeys.get.bind fun q =>
      obeys_onScope (obeys_plan (h q.ledger).previews fun _ _ => hR.refl _)

end

theorem learnIdentities_steady {R : Scope → Scope → Prop} (h : EvalSteady d R) (decl : ResourceDeclaration) :
    (changing (frame_scope h.toFrame) : Discipline ExpandError Progress).Obeys (learnIdentities d decl) :=
  obeys_learnIdentities h.evalObeys decl

theorem prepare_steady {R : Scope → Scope → Prop} (h : EvalSteady d R) (p : Progress) :
    R p.scope (outcome (prepare d) p).2.scope :=
  obeys_prepare h.evalObeys p

/-- A try at a declaration changes the scope as evaluation does, and adds diagnostics. -/
theorem settle_steady {R : Scope → Scope → Prop} (h : EvalSteady d R)
    (hd : ∀ s diagnostics, R s { s with diagnostics }) (x : Expander) (nested : Nested) (plan : Plan)
    (decl : ResourceDeclaration) :
    (changing (frame_scope h.toFrame) : Discipline ExpandError Progress).Obeys
      (x.settle nested d plan decl) := by
  intro p
  obtain ⟨r, q, ht, ho⟩ := settle_turn x nested d plan decl p
  rw [ho]
  exact ht.steady h hd

end Expander
end ResourceTemplate
