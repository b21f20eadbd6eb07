import ResourceTemplate.Proofs.Expander.References
import ResourceTemplate.Proofs.Redaction

namespace ResourceTemplate

theorem ResourceId.isMeant_of_same {id name target : String}
    (h : ResourceId.same id target = true) : Ledger.isMeant id name target = true := by
  simp [Ledger.isMeant, h]

namespace Ledger

variable {l : Ledger} {target : String} {f : Finding}

/-- Whether a target means a resource: by its id or name, or as a symbol that is bound to the id. -/
def Means (l : Ledger) (target : String) (r : ResourceValue) : Prop :=
  isMeant r.identity.id r.identity.name target = true ∨
    ∃ id, l.symbols.lookup target = .ok (some id) ∧ ResourceId.same r.identity.id id = true

def Inside (l : Ledger) (target : String) : Finding → Prop
  | .found r => r ∈ l.allResources ∧ l.Means target r
  | .external => False
  | _ => True

theorem inside_findingOf (s : DeclarationState) : l.Inside target (findingOf s) := by
  cases s <;> trivial

theorem inside_findingOfSymbol (symbol : String) : l.Inside target (l.findingOfSymbol symbol) := by
  unfold findingOfSymbol
  dsimp only
  split
  · trivial
  · split
    · trivial
    · split <;> trivial

theorem inside_findById {id : String} (h : l.symbols.lookup target = .ok (some id)) :
    l.Inside target (l.findById id) := by
  unfold findById
  split
  · trivial
  · cases hf : l.allResources.find? fun r => ResourceId.same r.identity.id id with
    | none => trivial
    | some r =>
      have hsame := List.find?_some hf
      exact ⟨List.mem_of_find?_eq_some hf, .inr ⟨id, h, hsame⟩⟩

/-- The id of a known identity leads to a resource, or to what became of a declaration. -/
theorem inside_findByIdOrName {k : KnownIdentity} (hk : k ∈ l.known)
    (hm : ResourceId.same k.id target = true) : l.Inside target (l.findByIdOrName target) := by
  unfold findByIdOrName
  cases hr : l.allResources.find? fun r => isMeant r.identity.id r.identity.name target with
  | some r =>
    have hmeant := List.find?_some hr
    exact ⟨List.mem_of_find?_eq_some hr, .inl hmeant⟩
  | none =>
    dsimp only
    split
    · trivial
    · cases hf : l.known.find? fun k => isMeant k.id k.name target with
      | some k' => exact inside_findingOf (l.state k'.declaration)
      | none =>
        rw [List.find?_eq_none] at hf
        exact absurd (ResourceId.isMeant_of_same hm) (hf k hk)

/-- What is found of the id of a known identity is never outside. -/
theorem find_inside {k : KnownIdentity} (hk : k ∈ l.known)
    (hm : ResourceId.same k.id target = true) (hf : l.find target = .ok f) :
    l.Inside target f := by
  rw [find_eq] at hf
  split at hf
  · cases hl : l.symbols.lookup target with
    | error fault =>
      rw [hl] at hf
      cases hf
    | ok bound =>
      cases bound with
      | some id =>
        rw [hl] at hf
        cases hf
        exact inside_findById hl
      | none =>
        rw [hl] at hf
        cases hf
        exact inside_findingOfSymbol _
  · cases hf
    exact inside_findByIdOrName hk hm

/-- What a reference to a resource of the template may give: what is seen of a resource of the ledger
that the target means, or an error. -/
inductive Answers (l : Ledger) (view : ResourceValue → Json) (target : String) :
    Except ExprError Json → Prop where
  | found (r : ResourceValue) (h : r ∈ l.allResources) (hm : l.Means target r) :
      Answers l view target (.ok (view r))
  | pending : Answers l view target (.error (.unresolvedSymbol target))
  | failed : Answers l view target (.error (.dependencyFailed target))
  | skipped : Answers l view target (.error (.conditionFalse target))
  | unbound (message : String) :
      Answers l view target (.error (.invalidArgument "reference" message))

end Ledger

/-- To resolve the id of a known identity gives an answer about the template's resources, and reports
nothing. -/
theorem Deployment.resolve_answers {d : Deployment} {l : Ledger} {k : KnownIdentity} {target : String}
    (hk : k ∈ l.known) (hm : ResourceId.same k.id target = true) (view : ResourceValue → Json)
    (s : Scope) : ∃ r, l.Answers view target r ∧ outcome (d.resolve l view target) s = (r, s) := by
  unfold Deployment.resolve
  cases hf : l.find target with
  | error fault => exact ⟨_, .unbound fault.message, rfl⟩
  | ok f =>
    have hin := Ledger.find_inside hk hm hf
    cases f with
    | found r => exact ⟨_, .found r hin.1 hin.2, rfl⟩
    | pending => exact ⟨_, .pending, rfl⟩
    | failed => exact ⟨_, .failed, rfl⟩
    | skipped => exact ⟨_, .skipped, rfl⟩
    | missing => exact ⟨_, .unbound _, rfl⟩
    | external => exact hin.elim

namespace Expander

variable {x : Expander} {nested : Nested} {d : Deployment} {plan : Plan} {p₀ : Progress}

/-- Once the identities of the declarations are collected, in whatever order they stand, a reference to
the id of one of them is answered by the resources of the template: it gives what is seen of a resource
that is emitted or exists, or fails. It never gives the placeholder of a resource outside of the template
and reports nothing. -/
theorem Reached.reference_of_known {v : Json} {s₀ : Scope} {h : History} {p : Progress}
    {k : KnownIdentity} {target : String} (ht : Template.ofJson v = .ok d.template)
    (h₀ : outcome (prepare d) (.start s₀ d.template.resources) = (.ok plan, p₀))
    (hr : Reached x nested d plan p₀ h p) (hk : k ∈ p₀.ledger.known)
    (hm : ResourceId.same k.id target = true) (s : Scope) :
    (∀ full, ∃ r,
      p.ledger.Answers (if full then ResourceValue.toJson else ResourceValue.properties) target r ∧
      outcome ((d.host p.ledger).reference target full) s = (r, s)) ∧
    ∃ r, p.ledger.Answers ResourceValue.info target r ∧
      outcome ((d.host p.ledger).resourceInfo target) s = (r, s) := by
  have hu := (prepare_ok (Template.ofJson_numbered ht) h₀).1
  have hk' : k ∈ p.ledger.known := by
    rw [(hr.recorded hu).known]
    exact hk
  exact ⟨fun full => Deployment.resolve_answers hk' hm _ s, Deployment.resolve_answers hk' hm _ s⟩

/-- A resource that refers to one declared after it, whose name may be an expression. -/
def forwardTo (name : String) : Json := .obj
  [("resources", .arr
    [.obj [("type", .str "A/b"), ("name", .str "x"), ("properties", .obj
      [("v", .str "[reference(resourceId('A/b', 'y')).z]")])],
     .obj [("type", .str "A/b"), ("name", .str "w"), ("properties", .obj [("n", .str "y")])],
     .obj [("type", .str "A/b"), ("name", .str name), ("properties", .obj [("z", .str "1")])]])]

theorem Reached.reference_of_known_forwardTo :
    ∃ d plan p₀ h p k, Template.ofJson (forwardTo "y") = .ok d.template ∧
      outcome (prepare d) (.start {} d.template.resources) = (.ok plan, p₀) ∧
      Reached small small.refuseNested d plan p₀ h p ∧
      k ∈ p₀.ledger.known ∧ k.declaration = 2 ∧
      (∀ s, ∃ r, p.ledger.Answers ResourceValue.properties k.id r ∧
        outcome ((d.host p.ledger).reference k.id false) s = (r, s)) ∧
      ∀ s, ∃ r, p.ledger.Answers ResourceValue.info k.id r ∧
        outcome ((d.host p.ledger).resourceInfo k.id) s = (r, s) := by
  have hc : prepares small.options (forwardTo "y") fun _ _ p₀ =>
      p₀.ledger.known.any fun k => k.declaration == 2 := by
    decide +kernel
  obtain ⟨d, plan, p₀, ht, h₀, hc⟩ := exists_of_prepares hc
  obtain ⟨k, hk, hd⟩ := List.any_eq_true.mp hc
  obtain ⟨h, hr⟩ := settleAll_reached small small.refuseNested ht h₀
  have hall := hr.reference_of_known ht h₀ hk (ResourceId.same_self k.id)
  exact ⟨d, plan, p₀, h, _, k, ht, h₀, hr, hk, beq_iff_eq.mp hd, fun s => (hall s).1 false,
    fun s => (hall s).2⟩

/-- The name of the last resource refers to one that is not expanded when identities are collected, so
that its own identity is not known. The first resource refers to its id before it is emitted, gets the
placeholder of a resource outside of the template, and the reference is reported. -/
theorem declared_taken_for_external :
    ∃ d plan p₀ h p r r', Template.ofJson (forwardTo "[reference('w').n]") = .ok d.template ∧
      outcome (prepare d) (.start {} d.template.resources) = (.ok plan, p₀) ∧
      Reached small small.refuseNested d plan p₀ h p ∧
      r ∈ p.emitted ∧ (Json.obj r.body).at? [.key "properties", .key "v"] =
        some (.str (Placeholder.braced "Resource.z")) ∧
      r' ∈ p.emitted ∧ (Diagnostic.externalReference r'.identity.id).located d.identity.name
        "/resources/0/properties/v" ∈ p.scope.diagnostics := by
  have hc : prepares small.options (forwardTo "[reference('w').n]") fun d plan p₀ =>
      let p := (outcome (small.settleAll small.refuseNested d plan) p₀).2
      (p.emitted.any fun r => ((Json.obj r.body).at? [.key "properties", .key "v"]).bind Json.str? =
        some (Placeholder.braced "Resource.z")) &&
      p.emitted.any fun r' => p.scope.diagnostics.contains
        ((Diagnostic.externalReference r'.identity.id).located d.identity.name
          "/resources/0/properties/v") := by
    decide +kernel
  obtain ⟨d, plan, p₀, ht, h₀, hc⟩ := exists_of_prepares hc
  obtain ⟨h, hr⟩ := settleAll_reached small small.refuseNested ht h₀
  obtain ⟨hv, hd⟩ := Bool.and_eq_true_iff.mp hc
  obtain ⟨r, hr₁, hv⟩ := List.any_eq_true.mp hv
  obtain ⟨r', hr₂, hd⟩ := List.any_eq_true.mp hd
  obtain ⟨w, hw, hs⟩ := Option.bind_eq_some_iff.mp (of_decide_eq_true hv)
  have hstr : w = .str (Placeholder.braced "Resource.z") := by
    cases w with
    | str u => exact congrArg Json.str (Option.some.inj hs)
    | _ => cases hs
  exact ⟨d, plan, p₀, h, _, r, r', ht, h₀, hr, hr₁, hstr ▸ hw, hr₂, by simpa using hd⟩

end Expander
end ResourceTemplate
