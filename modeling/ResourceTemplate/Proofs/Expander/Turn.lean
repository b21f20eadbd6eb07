import ResourceTemplate.Expander.Passes
import ResourceTemplate.Proofs.Expander.Commit
import ResourceTemplate.Proofs.Outcome

namespace ResourceTemplate

inductive Settlement where
  | committed (decl : ResourceDeclaration) (instances : List Instance)
  | failed (decl : ResourceDeclaration) (error : ExpandError)

namespace Settlement

@[simp] def declaration : Settlement → ResourceDeclaration
  | .committed decl _ => decl
  | .failed decl _ => decl

@[simp] def instances : Settlement → List Instance
  | .committed _ instances => instances
  | .failed .. => []

def ordinal (s : Settlement) : Nat := s.declaration.ordinal

@[simp] def state : Settlement → DeclarationState
  | .committed _ instances => Progress.stateOf instances
  | .failed .. => .failed

end Settlement

namespace ExpandM

variable {α : Type}

@[simp] theorem outcome_onScope (m : ScopeM α) (p : Progress) :
    outcome (onScope m) p = ((outcome m p.scope).1, { p with scope := (outcome m p.scope).2 }) := rfl

theorem outcome_onScope_eq_ok {m : ScopeM α} {p q : Progress} {a : α} :
    outcome (onScope m) p = (.ok a, q) ↔
      ∃ s, outcome m p.scope = (.ok a, s) ∧ q = { p with scope := s } := by
  rw [outcome_onScope]
  rcases outcome m p.scope with ⟨e | b, s⟩
  · simp
  · simp [eq_comm]

@[simp] theorem outcome_attempt (m : ExpandM α) (p : Progress) :
    outcome (attempt m) p = (.ok (outcome m p).1, (outcome m p).2) := rfl

theorem outcome_change (f : Progress → Except ExpandError Progress) (p : Progress) :
    outcome (change f) p = match f p with
      | .ok q => (.ok (), q)
      | .error e => (.error e, p) := rfl

end ExpandM

namespace Expander

/-- A declaration is tried once those it depends on are expanded or skipped. -/
theorem readiness_ready {l : Ledger} {is : List Nat} (h : readiness l is = .ready) :
    ∀ i ∈ is, l.state i = .expanded ∨ l.state i = .skipped := by
  induction is with
  | nil => simp
  | cons i is ih =>
    unfold readiness at h
    rw [List.forall_mem_cons]
    cases hs : l.state i with
    | failed => simp [hs] at h
    | pending => simp [hs] at h
    | expanded =>
      simp only [hs] at h
      exact ⟨.inl rfl, ih h⟩
    | skipped =>
      simp only [hs] at h
      exact ⟨.inr rfl, ih h⟩

def awaitedIds (plan : Plan) (p : Progress) (decl : ResourceDeclaration) : List String :=
  p.resolve (plan.dependenciesOf decl.ordinal)

/-- An attempt at a declaration: its instances are expanded on the scope. -/
def attempt (x : Expander) (nested : Nested) (d : Deployment) (plan : Plan)
    (decl : ResourceDeclaration) (p : Progress) : Except ExpandError (List Instance) × Scope :=
  outcome (x.expandInstances nested d p.ledger (awaitedIds plan p decl) decl) p.scope

variable {x : Expander} {nested : Nested} {d : Deployment} {plan : Plan}

/-- What an attempt at a declaration gives: its instances are settled, or an error leaves everything but
the scope as it was. -/
theorem outcome_expandDeclaration (x : Expander) (nested : Nested) (d : Deployment) (plan : Plan)
    (decl : ResourceDeclaration) (p : Progress) :
    outcome (x.expandDeclaration nested d plan decl) p =
      match x.attempt nested d plan decl p with
      | (.error e, s) => (.error e, { p with scope := s })
      | (.ok instances, s) =>
        match Progress.commit decl instances { p with scope := s } with
        | .error e => (.error e, { p with scope := s })
        | .ok q => (.ok (), q) := by
  unfold expandDeclaration attempt awaitedIds
  simp only [outcome_bind, outcome_get, ExpandM.outcome_onScope, ExpandM.outcome_change]
  rcases outcome (x.expandInstances nested d p.ledger _ decl) p.scope with ⟨e | instances, s⟩
  · rfl
  · dsimp only
    cases Progress.commit decl instances { p with scope := s } <;> rfl

inductive AttemptFails (x : Expander) (nested : Nested) (d : Deployment) (plan : Plan)
    (decl : ResourceDeclaration) (p : Progress) (e : ExpandError) (s : Scope) : Prop where
  | expanding (h : x.attempt nested d plan decl p = (.error e, s))
  | entering (instances : List Instance)
      (h : x.attempt nested d plan decl p = (.ok instances, s))
      (hc : Progress.commit decl instances { p with scope := s } = .error e)

theorem AttemptFails.scope_eq {decl : ResourceDeclaration} {p : Progress} {e : ExpandError} {s : Scope}
    (h : AttemptFails x nested d plan decl p e s) : (x.attempt nested d plan decl p).2 = s := by
  cases h with
  | expanding h => rw [h]
  | entering instances h hc => rw [h]

/-- What a turn can do: settle the declaration, leave it pending, or end the expansion. -/
inductive Turn (x : Expander) (nested : Nested) (d : Deployment) (plan : Plan)
    (decl : ResourceDeclaration) (p : Progress) :
    Except ExpandError (Option Settlement) → Progress → Prop where
  | waits (h : readiness p.ledger (plan.dependenciesOf decl.ordinal) = .waiting) :
      Turn x nested d plan decl p (.ok none) p
  | dependencyFailed (dependency : String)
      (h : readiness p.ledger (plan.dependenciesOf decl.ordinal) = .failed dependency) :
      Turn x nested d plan decl p (.ok (some (.failed decl (.dependencyFailed dependency))))
        (p.fail d decl (.dependencyFailed dependency))
  | commits (instances : List Instance) (s : Scope) (q : Progress)
      (hr : readiness p.ledger (plan.dependenciesOf decl.ordinal) = .ready)
      (ha : x.attempt nested d plan decl p = (.ok instances, s))
      (hc : Progress.commit decl instances { p with scope := s } = .ok q) :
      Turn x nested d plan decl p (.ok (some (.committed decl instances))) q
  | refers (e : ExpandError) (s : Scope)
      (hr : readiness p.ledger (plan.dependenciesOf decl.ordinal) = .ready)
      (ha : AttemptFails x nested d plan decl p e s)
      (hs : e.isStructural = false) (hu : e.isUnresolved = true) :
      Turn x nested d plan decl p (.ok none) { p with scope := s }
  | fails (e : ExpandError) (s : Scope)
      (hr : readiness p.ledger (plan.dependenciesOf decl.ordinal) = .ready)
      (ha : AttemptFails x nested d plan decl p e s)
      (hs : e.isStructural = false) (hu : e.isUnresolved = false) :
      Turn x nested d plan decl p (.ok (some (.failed decl e)))
        (Progress.fail d decl e { p with scope := s })
  | ends (e : ExpandError) (s : Scope)
      (hr : readiness p.ledger (plan.dependenciesOf decl.ordinal) = .ready)
      (ha : AttemptFails x nested d plan decl p e s) (hs : e.isStructural = true) :
      Turn x nested d plan decl p (.error e) { p with scope := s }

theorem tryDeclaration_turn {decl : ResourceDeclaration} {p : Progress}
    (hr : readiness p.ledger (plan.dependenciesOf decl.ordinal) = .ready) :
    ∃ r q, Turn x nested d plan decl p r q ∧
      outcome (x.tryDeclaration nested d plan decl) p = (r.map Option.isSome, q) := by
  -- an attempt that fails ends the expansion, leaves the declaration pending, or settles it
  have fails {e : ExpandError} {s : Scope} (ha : AttemptFails x nested d plan decl p e s)
      (ho : outcome (x.expandDeclaration nested d plan decl) p = (.error e, { p with scope := s })) :
      ∃ r q, Turn x nested d plan decl p r q ∧
        outcome (x.tryDeclaration nested d plan decl) p = (r.map Option.isSome, q) := by
    unfold tryDeclaration
    simp only [outcome_bind, ExpandM.outcome_attempt, ho]
    cases hs : e.isStructural with
    | true => exact ⟨_, _, .ends e s hr ha hs, by simp [Except.map]⟩
    | false =>
      cases hu : e.isUnresolved with
      | true => exact ⟨_, _, .refers e s hr ha hs hu, by simp [Except.map]⟩
      | false => exact ⟨_, _, .fails e s hr ha hs hu, by simp [outcome_map, Except.map]⟩
  have ho := outcome_expandDeclaration x nested d plan decl p
  rcases ha : x.attempt nested d plan decl p with ⟨e | instances, s⟩
  · rw [ha] at ho
    exact fails (.expanding ha) ho
  · rw [ha] at ho
    cases hc : Progress.commit decl instances { p with scope := s } with
    | error e =>
      simp only [hc] at ho
      exact fails (.entering instances ha hc) ho
    | ok q =>
      simp only [hc] at ho
      refine ⟨_, _, .commits instances s q hr ha hc, ?_⟩
      unfold tryDeclaration
      simp [outcome_bind, ho, Except.map]

theorem settle_turn (x : Expander) (nested : Nested) (d : Deployment) (plan : Plan)
    (decl : ResourceDeclaration) (p : Progress) :
    ∃ r q, Turn x nested d plan decl p r q ∧
      outcome (x.settle nested d plan decl) p = (r.map Option.isSome, q) := by
  unfold settle
  simp only [outcome_bind, outcome_get]
  cases hr : readiness p.ledger (plan.dependenciesOf decl.ordinal) with
  | waiting => exact ⟨_, _, .waits hr, by simp [Except.map]⟩
  | failed dependency => exact ⟨_, _, .dependencyFailed dependency hr, by simp [outcome_map, Except.map]⟩
  | ready => exact tryDeclaration_turn hr

end Expander
end ResourceTemplate
