import ResourceTemplate.Proofs.Deployment.Failures
import ResourceTemplate.Proofs.Expander.Evaluation
import ResourceTemplate.Proofs.Expander.Run

namespace ResourceTemplate

variable {E : ExprError → Prop}

namespace ExpandM

variable {α β : Type} {P Q : ExpandError → Prop}

theorem failsWith_onScope {m : ScopeM α} (h : FailsWith Q m) : FailsWith Q (onScope m) := by
  intro p e q he
  rw [outcome_onScope, Prod.mk.injEq] at he
  exact h _ e _ (Prod.ext he.1 rfl)

theorem failsWith_change {f : Progress → Except ExpandError Progress} (h : ∀ p, Fails Q (f p)) :
    FailsWith Q (change f) := by
  intro p e q he
  rw [outcome_change] at he
  split at he
  · cases he
  · rename_i e' hf
    cases he
    exact h p e hf

theorem failsWith_attempt_bind {m : ExpandM α} {k : Except ExpandError α → ExpandM β} (hm : FailsWith P m)
    (hk : ∀ r, Fails P r → FailsWith Q (k r)) : FailsWith Q (attempt m >>= k) := by
  intro p e q he
  rw [outcome_bind, outcome_attempt] at he
  exact hk _ (fun e' he' => hm p e' _ (Prod.ext he' rfl)) _ e q he

end ExpandM

namespace Progress

theorem bind_fails (p : Progress) (decl : ResourceDeclaration) (id : String) :
    Fails (fun e => ∃ fault, e = .symbol fault) (p.bind decl id) := by
  unfold bind
  split
  · exact .ok _
  · split
    · exact Fails.error.mpr ⟨_, rfl⟩
    · exact .ok _

/-- Nothing but a symbol goes wrong when instances are entered. -/
theorem commit_fails (decl : ResourceDeclaration) (instances : List Instance) (p : Progress) :
    Fails (fun e => ∃ fault, e = .symbol fault) (commit decl instances p) := by
  refine (Fails.foldlM (fun p i => ?_) _ _).bind fun _ => .pure _
  unfold enter
  split
  · refine (bind_fails _ _ _).bind fun q => ?_
    split <;> exact .pure _
  · exact (bind_fails _ _ _).bind fun _ => .pure _
  · exact .ok _
  · extract_lets join
    have hj : ∀ q, Fails (fun e => ∃ fault, e = .symbol fault) (join q) := fun _ => .pure _
    exact .ite ((bind_fails _ _ _).bind hj) ((Fails.ok _).bind hj)

end Progress

namespace Expander

variable {d : Deployment} {l : Ledger} {x : Expander} {nested : Nested} {plan : Plan}

/-- An expansion of nested deployments that fails with nothing but what has a property. -/
def Nested.Fails (E : ExprError → Prop) (nested : Nested) : Prop :=
  ∀ t identity values log e log', nested t identity values log = (.error e, log') → Within E e

theorem failing_nested (hn : Nested.Fails E nested) : nested.Obeys (failing (Within E)) := by
  intro t identity values s e u he
  change runNested nested t identity values s = _ at he
  unfold runNested at he
  dsimp only at he
  rw [Prod.mk.injEq] at he
  exact hn t identity values s.log e _ (Prod.ext he.1 rfl)

/-- Where an attempt is broken off, it fails with what definite failures and those of nested deployments have. -/
theorem attempt_fails (hE : Admits E) (hn : Nested.Fails E nested) {decl : ResourceDeclaration} {p : Progress}
    {e : ExpandError} {s : Scope} (h : x.attempt nested d plan decl p = (.error e, s)) :
    Within (WhereAborted E) e :=
  have hw : Nested.Fails (WhereAborted E) nested := fun t identity values log e log' he =>
    (hn t identity values log e log' he).whereAborted
  obeys_expandInstances (Deployment.evalObeys_whereAborted hE d p.ledger) (failing_nested hw) _ decl _ e s h

section
variable (hE : Admits E)
include hE

theorem failsWith_learnIdentities (decl : ResourceDeclaration) : FailsWith (Within E) (learnIdentities d decl) :=
  Discipline.Obeys.get.bind fun _ =>
    (ExpandM.failsWith_onScope ((Deployment.failing_previews hE d _).previewIdentities decl)).bind fun _ =>
      FailsWith.modify _

theorem failsWith_plan : FailsWith (Within E) (Expander.plan d l) :=
  obeys_plan (Deployment.failing_previews hE d l) fun _ => FailsWith.throw nofun

omit hE in
theorem declareSymbols_fails (p : Progress) : Fails (Within E) (declareSymbols p) := by
  unfold declareSymbols
  split
  · exact Fails.error.mpr nofun
  · exact .ok _

theorem failsWith_settle (hn : Nested.Fails E nested) (decl : ResourceDeclaration) :
    FailsWith (Within E) (x.settle nested d plan decl) := by
  intro p e q he
  obtain ⟨r, q', ht, ho⟩ := settle_turn x nested d plan decl p
  rw [ho, Prod.mk.injEq] at he
  cases r with
  | error e' =>
    cases he.1
    cases ht with
    | ends _ _ hr ha hs =>
      cases ha with
      | expanding h => exact within_of_isStructural hs (attempt_fails hE hn h)
      | entering instances h hc =>
        obtain ⟨fault, rfl⟩ := Progress.commit_fails decl instances _ e hc
        nofun
  | ok s => cases he.1

theorem failsWith_passes (hn : Nested.Fails E nested) (fuel : Nat) (is : List Nat) :
    FailsWith (Within E) (x.passes nested d plan fuel is) :=
  obeys_passes (failsWith_settle hE hn) (fun _ _ => FailsWith.throw nofun) fuel is

theorem failsWith_evalOutputs (os : List OutputDefinition) (acc : Entries Json) :
    FailsWith (Within E) (evalOutputs d acc os) := by
  induction os generalizing acc with
  | nil => exact .pure _
  | cons o os ih =>
    unfold evalOutputs
    refine Discipline.Obeys.get.bind fun p => ExpandM.failsWith_attempt_bind
      (ExpandM.failsWith_onScope (obeys_evalOutput (Deployment.evalObeys_whereAborted hE d _) _ o)) fun r hr => ?_
    split
    · exact ih _
    · exact ih _
    · split
      · exact FailsWith.throw (within_of_isStructural (by assumption) (hr _ rfl))
      · exact (FailsWith.modify _).bind fun _ => ih _

theorem failsWith_run (hn : Nested.Fails E nested) : FailsWith (Within E) (x.run nested d) :=
  (ExpandM.failsWith_change declareSymbols_fails).bind fun _ =>
    (Discipline.Obeys.forM (failsWith_learnIdentities hE) _).bind fun _ =>
      Discipline.Obeys.get.bind fun _ => (ExpandM.failsWith_onScope (failsWith_plan hE)).bind fun _ =>
        (failsWith_passes hE hn _ _).bind fun _ => failsWith_evalOutputs hE _ _

theorem expandWith_fails (x : Expander) (hn : Nested.Fails E nested) : Nested.Fails E (x.expandWith nested) := by
  intro t identity values log e log' h
  unfold expandWith at h
  split at h
  · rename_i hc
    cases h
    exact Deployment.obeys_create hE.surrounds.lift hE.surrounds.report _ _ _ _ _ e _ hc
  · split at h
    · rename_i hr
      cases h
      exact failsWith_run hE hn _ e _ hr
    · cases h

/-- A nested deployment fails with nothing but what all definite failures have. -/
theorem nestedAt_fails (x : Expander) (depth : Nat) : Nested.Fails E (x.nestedAt depth) := by
  induction depth with
  | zero =>
    intro t identity values log e log' h
    cases h
    nofun
  | succ depth ih =>
    rw [nestedAt, expandAt_eq]
    exact expandWith_fails hE x ih

end

/-- An attempt that another resource may cure has met a reference to what is pending. -/
theorem attempt_unresolved {depth : Nat} {decl : ResourceDeclaration} {p : Progress}
    {e : ExpandError} {s : Scope}
    (h : x.attempt (x.nestedAt depth) d plan decl p = (.error e, s)) (hu : e.isUnresolved = true) :
    ∃ pointer target, e = .expression pointer (.unresolvedSymbol target) ∧
      p.ledger.find target = .ok .pending := by
  -- vacuous of every failure but the one that has a target
  have hE : Admits fun e => ∀ target, e = .unresolvedSymbol target →
      p.ledger.find target = .ok .pending := by
    intro e he target h
    rw [h] at he
    cases he
  have hd := d.failing_obeys hE nofun (l := p.ledger) fun target ht _ h => by
    cases h
    exact ht
  have hw := obeys_expandInstances hd.evalObeys (failing_nested (nestedAt_fails hE x depth)) _ decl _ e s h
  cases e with
  | expression pointer source =>
    cases source with
    | unresolvedSymbol target => exact ⟨pointer, target, rfl, within_expression.mp hw target rfl⟩
    | _ => cases hu
  | _ => cases hu

end Expander
end ResourceTemplate
