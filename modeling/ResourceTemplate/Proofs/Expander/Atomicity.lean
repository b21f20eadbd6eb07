import ResourceTemplate.Proofs.Deployment.Slots
import ResourceTemplate.Proofs.Expander.Changes
import ResourceTemplate.Proofs.Expander.References

namespace ResourceTemplate

theorem Scope.eq_of_context {s t : Scope} (hl : t.loops = s.loops) (hp : t.pointer = s.pointer) :
    t = { s with parameters := t.parameters, vars := t.vars, secure := t.secure, guids := t.guids,
                 diagnostics := t.diagnostics, log := t.log } := by
  rw [← hl, ← hp]

namespace Progress

/-- A declared symbol refuses an id only because it is bound already, which ends the expansion. -/
theorem bind_structural {p : Progress} {decl : ResourceDeclaration}
    (hd : p.ledger.symbols.Declares decl) (id : String) :
    Fails (fun e => e.isStructural = true) (p.bind decl id) := by
  unfold bind
  split
  · exact .ok _
  · rename_i symbol hs
    obtain ⟨s, hf, -⟩ := hd symbol hs
    unfold SymbolTable.configure
    simp only [hf]
    cases s with
    | array name ids => exact .ok _
    | object name bound =>
      cases bound with
      | none => exact .ok _
      | some _ => exact Fails.error.mpr rfl

theorem enter_structural {p : Progress} {decl : ResourceDeclaration}
    (hd : p.ledger.symbols.Declares decl) (i : Instance) :
    Fails (fun e => e.isStructural = true) (enter decl p i) := by
  unfold enter
  split
  · refine (bind_structural hd _).bind fun q => ?_
    split <;> exact .pure _
  · exact (bind_structural hd _).bind fun _ => .pure _
  · exact .ok _
  · extract_lets join
    have hj : ∀ q, Fails (fun e => e.isStructural = true) (join q) := fun _ => .pure _
    exact .ite ((bind_structural hd _).bind hj) ((Fails.ok _).bind hj)

/-- Whatever goes wrong when the instances of a declaration are entered ends the expansion. -/
theorem commit_structural {p : Progress} {decl : ResourceDeclaration}
    (hd : p.ledger.symbols.Declares decl) (instances : List Instance) :
    Fails (fun e => e.isStructural = true) (commit decl instances p) := by
  refine Fails.bind ?_ fun _ => .pure _
  induction instances generalizing p with
  | nil => exact .pure _
  | cons i is ih =>
    rw [List.foldlM_cons]
    intro e he
    cases hq : enter decl p i with
    | error e' =>
      rw [hq] at he
      cases he
      exact enter_structural hd i e hq
    | ok q =>
      rw [hq] at he
      exact ih (hd.keep (enter_entered hq).symbols.keepsKinds) e he

end Progress

namespace Expander

variable {x : Expander} {nested : Nested} {d : Deployment} {plan : Plan} {p₀ : Progress}

/-- An attempt at a declaration that fails without ending the expansion fails before anything is entered.
The ledger, the ids of the instances, what is emitted and the failures are as before, and of the scope so
are the loops and the place; values that were kept, identifiers and reports remain. -/
theorem expandDeclaration_atomic {v : Json} {s : Scope} {h : History} {p q : Progress}
    {decl : ResourceDeclaration} {e : ExpandError} (ht : Template.ofJson v = .ok d.template)
    (h₀ : outcome (prepare d) (.start s d.template.resources) = (.ok plan, p₀))
    (hp : Reached x nested d plan p₀ h p) (hd : decl ∈ d.template.resources)
    (he : outcome (x.expandDeclaration nested d plan decl) p = (.error e, q))
    (hs : e.isStructural = false) :
    (∃ t, x.attempt nested d plan decl p = (.error e, t)) ∧
      ∃ parameters vars secure guids diagnostics log,
        q = { p with scope :=
          { p.scope with parameters, vars, secure, guids, diagnostics, log } } := by
  have hu := (prepare_ok (Template.ofJson_numbered ht) h₀).1
  have hdecl : p.ledger.symbols.Declares decl := by
    apply (hp.grounded hu).declared
    rw [(hp.recorded hu).declarations]
    exact hd
  have hsteady := attempt_steady d.steady_undisturbed.evalSteady x nested plan decl p
  rw [outcome_expandDeclaration] at he
  rcases ha : x.attempt nested d plan decl p with ⟨e' | instances, t⟩
  · rw [ha] at he hsteady
    cases he
    refine ⟨⟨t, rfl⟩, t.parameters, t.vars, t.secure, t.guids, t.diagnostics, t.log, ?_⟩
    exact congrArg (fun scope => { p with scope }) (Scope.eq_of_context hsteady.loops hsteady.pointer)
  · rw [ha] at he
    dsimp only at he
    split at he
    · rename_i e' hc
      cases he
      have hc' : e.isStructural = true :=
        Progress.commit_structural (p := { p with scope := t }) hdecl instances e hc
      rw [hs] at hc'
      cases hc'
    · cases he

/-- The second instance of a loop fails after the first was expanded. -/
def failingIndex : Json := .obj
  [("resources", .arr
    [.obj [("type", .str "A/b"), ("name", .str "[concat('x', copyIndex())]"),
      ("copy", .obj [("name", .str "c"), ("count", .num (.int 2))]),
      ("tags", .str "[createArray('t')[copyIndex()]]")]])]

theorem expandDeclaration_atomic_failingIndex :
    ∃ d plan p₀ decl e q, Template.ofJson failingIndex = .ok d.template ∧
      outcome (prepare d) (.start {} d.template.resources) = (.ok plan, p₀) ∧
      decl ∈ d.template.resources ∧
      outcome (small.expandDeclaration small.refuseNested d plan decl) p₀ = (.error e, q) ∧
      e = .expression "/resources/0/tags" (.indexOutOfRange 1 1) ∧
      ∃ parameters vars secure guids diagnostics log, q = { p₀ with scope :=
        { p₀.scope with parameters, vars, secure, guids, diagnostics, log } } := by
  have hc : prepares small.options failingIndex fun d plan p₀ =>
      d.template.resources.head?.any fun decl =>
        (outcome (small.expandDeclaration small.refuseNested d plan decl) p₀).1 =
          .error (.expression "/resources/0/tags" (.indexOutOfRange 1 1)) := by
    decide +kernel
  obtain ⟨d, plan, p₀, ht, h₀, hc⟩ := exists_of_prepares hc
  obtain ⟨decl, hd, hc⟩ := (Option.any_eq_true _ _).mp hc
  have hmem : decl ∈ d.template.resources := List.mem_of_mem_head? hd
  have he := of_decide_eq_true hc
  rcases ho : outcome (small.expandDeclaration small.refuseNested d plan decl) p₀ with ⟨r, q⟩
  rw [ho] at he
  obtain rfl := he
  obtain ⟨-, hq⟩ := expandDeclaration_atomic ht h₀ .start hmem ho rfl
  exact ⟨d, plan, p₀, decl, _, q, ht, h₀, hmem, ho, rfl, hq⟩

end Expander
end ResourceTemplate
