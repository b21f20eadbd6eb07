import ResourceTemplate.Proofs.Expander.Origins
import ResourceTemplate.Proofs.Expander.Outputs

namespace ResourceTemplate

theorem SymbolTable.contains_of_configure {t u : SymbolTable} {name id : String} (h : t.configure name id = .ok u)
    (other : String) : u.contains other = t.contains other := by
  obtain ⟨s, s', hs, -, rfl⟩ := configure_ok h
  unfold contains
  rw [find?_put]
  split
  · rename_i hsame
    rw [find?_congr t hsame, hs]
    rfl
  · rfl

theorem Binds.contains_eq {decl : ResourceDeclaration} {id : Option String} {t u : SymbolTable} (h : Binds decl id t u)
    (other : String) : u.contains other = t.contains other := by
  unfold Binds at h
  split at h
  · exact SymbolTable.contains_of_configure h other
  · rw [h]

theorem Progress.commit_contains {decl : ResourceDeclaration} {instances : List Instance} {p q : Progress}
    (h : commit decl instances p = .ok q) (other : String) :
    q.ledger.symbols.contains other = p.ledger.symbols.contains other := by
  unfold commit at h
  obtain ⟨m, hf, h⟩ := bind_eq_ok.mp h
  cases h
  have hm : m.ledger.symbols.contains other = p.ledger.symbols.contains other :=
    foldlM_keeps (P := fun m => m.ledger.symbols.contains other = p.ledger.symbols.contains other)
      (fun _ _ _ _ hm he => ((enter_entered he).symbols.contains_eq other).trans hm) rfl hf
  exact hm

namespace Expr

variable {σ : Type} {h : Host σ} {scopes : Scopes} {target : String} {s t : σ} {full : Bool} {e : Expr}

/-- Whether an expression, from a state to another, comes to refer to a target: to its properties by `reference(target)`
or `reference(target, version)`, and to all of it by `reference(target, version, 'Full')`. -/
inductive Refers (h : Host σ) (scopes : Scopes) (target : String) (s t : σ) : (full : Bool) → Expr → Prop
  | latest {f : String} {a : Expr} {span : Span} (hf : Name.same f "reference" = true)
      (ha : outcome (eval h scopes a) s = (.ok (.str target), t)) :
      Refers h scopes target s t false (.call none f [a] span)
  | version {f : String} {a b : Expr} {v : Json} {u : σ} {span : Span} (hf : Name.same f "reference" = true)
      (ha : outcome (eval h scopes a) s = (.ok (.str target), u)) (hb : outcome (eval h scopes b) u = (.ok v, t)) :
      Refers h scopes target s t false (.call none f [a, b] span)
  | full {f word : String} {a b c : Expr} {v : Json} {u w : σ} {span : Span} (hf : Name.same f "reference" = true)
      (ha : outcome (eval h scopes a) s = (.ok (.str target), u)) (hb : outcome (eval h scopes b) u = (.ok v, w))
      (hc : outcome (eval h scopes c) w = (.ok (.str word), t)) (hw : Name.same word "Full" = true) :
      Refers h scopes target s t true (.call none f [a, b, c] span)

theorem Refers.outcome_eval (hr : Refers h scopes target s t full e) :
    outcome (eval h scopes e) s = outcome (h.reference target full) t := by
  cases hr with
  | latest hf ha => exact outcome_reference hf ha
  | version hf ha hb =>
    rw [outcome_call_asking (Catalog.lookup?_reference hf) (outcome_values_cons ha (outcome_values_singleton hb))]
    rfl
  | @full f word _ _ _ v _ _ _ hf ha hb hc hw =>
    rw [outcome_call_asking (Catalog.lookup?_reference hf)
      (outcome_values_cons ha (outcome_values_cons hb (outcome_values_singleton hc)))]
    have hfull : Name.same word "full" = true := hw
    change outcome (h.reference target (Name.same word "full")) t = _
    rw [hfull]

end Expr

namespace Expander

variable {x : Expander} {nested : Nested} {d : Deployment} {plan : Plan} {p₀ : Progress}

theorem Reached.contains {h : History} {p : Progress} (hr : Reached x nested d plan p₀ h p) (name : String) :
    p.ledger.symbols.contains name = p₀.ledger.symbols.contains name := by
  have hturn {decl : ResourceDeclaration} {p q : Progress} {r : Except ExpandError (Option Settlement)}
      (ht : Turn x nested d plan decl p r q) :
      q.ledger.symbols.contains name = p.ledger.symbols.contains name := by
    cases ht with
    | commits instances s q _ _ hc => exact Progress.commit_contains hc name
    | _ => rfl
  induction hr with
  | start => rfl
  | turn _ _ _ ht ih => exact (hturn ht).trans ih
  | ends _ _ _ ht ih => exact (hturn ht).trans ih

/-- Every host of a deployment finds the targets of references in the ledger. -/
theorem reference_hostAt (l : Ledger) (depth : Nat) (target : String) (full : Bool) :
    (d.hostAt l depth).reference target full =
      d.resolve l (if full then ResourceValue.toJson else ResourceValue.properties) target := by
  cases depth <;> rfl

namespace Run

variable {depth : Nat} (run : Run x depth)

def Passes (h : History) (p : Progress) : Prop :=
  Reached x (x.nestedAt depth) run.deployment run.plan run.start h p ∧ h <+: run.history

/-- Whether an id means one resource of a deployment, emitted or existing, and addresses no symbol of it, neither as
`symbol` nor as `symbol[i]`. -/
structure Identifies (r : ResourceValue) : Prop where
  only : ∀ r' ∈ run.final.ledger.allResources,
    Ledger.isMeant r'.identity.id r'.identity.name r.identity.id = true → r' = r
  noSymbol : run.final.ledger.symbols.contains (Ledger.addressed r.identity.id) = false

/-- A resource that a deployment emits is there to be referred to from the time its declaration is committed, in its
final form: every reference by its id, in whatever evaluation, gives its properties or all of it. -/
structure Publishes (r : ResourceValue) : Prop where
  emitted : r ∈ run.final.ledger.resources
  reads : run.Identifies r → ∀ h p, run.Passes h p → r ∈ h.resources → ∀ depth scopes s t full e,
    Expr.Refers (run.deployment.hostAt p.ledger depth) scopes r.identity.id s t full e →
    outcome (Expr.eval (run.deployment.hostAt p.ledger depth) scopes e) s =
      (.ok (if full then r.toJson else r.properties), t)

/-- What is in the ledger of a progress of a run is in the ledger of its end. -/
theorem Passes.allResources_subset {run : Run x depth} {h : History} {p : Progress} (hp : run.Passes h p) :
    p.ledger.allResources ⊆ run.final.ledger.allResources := by
  obtain ⟨hr, after, hh⟩ := hp
  have hrec := hr.recorded run.unsettled
  intro r hm
  rw [Ledger.allResources, hrec.resources, hrec.existing] at hm
  rw [Ledger.allResources, run.recorded.resources, run.recorded.existing, ← hh, History.resources,
    History.instances_append, List.flatMap_append, List.flatMap_append]
  simp only [History.resources, List.mem_append] at hm ⊢
  exact hm.imp .inl .inl

theorem publishes {n : Nat} {decl : ResourceDeclaration} {r : ResourceValue} {inner : Option ExpandedDeployment}
    (h : run.history.Begins n decl (.emitted r inner)) : run.Publishes r where
  emitted := by
    obtain ⟨before, after, first, last, hh, -⟩ := h
    rw [run.recorded.resources, hh]
    simp [History.resources, History.instances, Settlement.instances]
  reads hid h p hp hr depth scopes s t full e he := by
    have hmem : r ∈ p.ledger.allResources := by
      rw [Ledger.allResources, (hp.1.recorded run.unsettled).resources]
      exact List.mem_append_left _ hr
    have hsymbol : p.ledger.symbols.contains (Ledger.addressed r.identity.id) = false := by
      rw [hp.1.contains, ← run.reached.contains, hid.noSymbol]
    have hmeant : Ledger.isMeant r.identity.id r.identity.name r.identity.id = true := by simp [Ledger.isMeant]
    have hfind : p.ledger.find r.identity.id = .ok (.found r) :=
      Ledger.find_of_meant hsymbol hmem hmeant fun r' hr' => hid.only r' (hp.allResources_subset hr')
    rw [he.outcome_eval, reference_hostAt, outcome_resolve_found hfind]
    cases full <;> rfl

end Run

/-- An expansion is the run of its root deployment. Every resource that it gives, at whatever depth the declaration of
the resource stands, is what references by its id give in the deployment that declares it, at every time after it was
committed: as it is in the end, its secrets replaced and its null members left out. -/
theorem expand_publishes {v : Json} {t : Template} {values : Entries Json} {log : List Diagnostic}
    {e : ExpandedDeployment} (ht : Template.ofJson v = .ok t) (h : x.expand t values = (.ok e, log)) :
    ∃ run : Run x x.options.maxDepth, run.IsRoot t values e ∧ ∀ i r, e.resources[i]? = some r →
      ∃ (leafDepth : Nat) (leaf : Run x leafDepth) (decl : ResourceDeclaration) (inner : Option ExpandedDeployment),
        Origin x run i leaf decl r inner ∧ leaf.Publishes r := by
  obtain ⟨run, hroot⟩ := exists_isRoot ht h
  refine ⟨run, hroot, fun i r hi => ?_⟩
  obtain ⟨leafDepth, leaf, decl, inner, ho⟩ := hroot.isOf.exists_origin hi
  obtain ⟨_, _, _, _, -, hb⟩ := ho.begins hroot.isOf
  exact ⟨leafDepth, leaf, decl, inner, ho, leaf.publishes hb⟩

/-- What is computed of the root deployment of a template without values holds of its run. -/
theorem Run.of_prepares {depth : Nat} {run : Run x depth} {v : Json} {t : Template}
    {check : Deployment → Plan → Progress → Bool} (ht : Template.ofJson v = .ok t)
    (hc : outcome (Deployment.create t x.options (.root x.options t.scopeLevel) []) {} =
      (.ok run.deployment, run.scope))
    (h : prepares x.options v check = true) : check run.deployment run.plan run.start = true := by
  have hd : run.deployment = ⟨t, x.options, .root x.options t.scopeLevel, []⟩ ∧ run.scope = {} := by
    obtain ⟨hd, hs⟩ := Prod.mk.inj hc
    exact ⟨(Except.ok.inj hd).symm, hs.symm⟩
  have hprepared := run.prepared
  obtain ⟨⟨d, plan, p⟩, hp, hcheck⟩ := (Option.any_eq_true _ _).mp h
  unfold prepared? at hp
  simp only [ht] at hp
  rw [hd.1, hd.2] at hprepared
  simp only [hprepared] at hp
  cases hp
  rw [hd.1]
  exact hcheck

def noteOf (r : ResourceValue) : Option String := (r.properties.member? "note").bind Json.str?

def noteAt (l : Ledger) (target : String) : Option String :=
  match l.find target with
  | .ok (.found r) => noteOf r
  | _ => none

theorem find_of_noteAt {l : Ledger} {target note : String} (h : noteAt l target = some note) :
    ∃ r, l.find target = .ok (.found r) ∧ noteOf r = some note := by
  unfold noteAt at h
  split at h
  · exact ⟨_, ‹_›, h⟩
  · cases h

/-- Two resources with notes, the second called `x[0]`. -/
def shadowing (symbol : String) : Json := .obj
  [("languageVersion", .str "2.0"),
   ("resources", .obj
    [(symbol, .obj [("type", .str "A/b"), ("name", .str "y"), ("properties", .obj [("note", .str "other")])]),
     ("z", .obj [("type", .str "A/b"), ("name", .str "x[0]"), ("properties", .obj [("note", .str "own")])])])]

/-- The ledger of the root deployment of `shadowing`, in the end, passes a check; it holds the two resources, of which
the first has another note than the second, and none is meant by the id of the other. -/
def settlesTwo (symbol : String) (check : Ledger → ResourceValue → ResourceValue → Bool) : Bool :=
  prepares small.options (shadowing symbol) fun d plan p₀ =>
    let l := (outcome (small.settleAll (small.nestedAt small.options.maxDepth) d plan) p₀).2.ledger
    match l.resources, l.existing with
    | [r, r'], [] =>
      !Ledger.isMeant r.identity.id r.identity.name r'.identity.id &&
        !Ledger.isMeant r'.identity.id r'.identity.name r.identity.id &&
        noteOf r == some "other" && noteOf r' == some "own" && check l r r'
    | _, _ => false

theorem Run.of_settlesTwo {run : Run small small.options.maxDepth} {symbol : String} {t : Template}
    (check : Ledger → ResourceValue → ResourceValue → Bool) (ht : Template.ofJson (shadowing symbol) = .ok t)
    (hc : outcome (Deployment.create t small.options (.root small.options t.scopeLevel) []) {} =
      (.ok run.deployment, run.scope)) (h : settlesTwo symbol check = true) :
    ∃ r r', run.final.ledger.resources = [r, r'] ∧ run.final.ledger.allResources = [r, r'] ∧
      Ledger.isMeant r.identity.id r.identity.name r'.identity.id = false ∧
      Ledger.isMeant r'.identity.id r'.identity.name r.identity.id = false ∧
      noteOf r = some "other" ∧ noteOf r' = some "own" ∧ check run.final.ledger r r' = true := by
  have hcheck := Run.of_prepares ht hc h
  rw [run.settled] at hcheck
  dsimp only at hcheck
  split at hcheck
  · rename_i r r' hr he
    simp only [Bool.and_eq_true, Bool.not_eq_true', beq_iff_eq] at hcheck
    obtain ⟨⟨⟨⟨hm, hm'⟩, hn⟩, hn'⟩, hk⟩ := hcheck
    exact ⟨r, r', hr, by rw [Ledger.allResources, hr, he, List.append_nil], hm, hm', hn, hn', hk⟩
  · cases hcheck

theorem expands_shadowing {symbol : String} (h : (Template.ofJson (shadowing symbol)).toOption.any fun t =>
      (small.expand t []).1.toOption.any fun e => e.resources[0]?.isSome) :
    ∃ t e log r, Template.ofJson (shadowing symbol) = .ok t ∧ small.expand t [] = (.ok e, log) ∧
      e.resources[0]? = some r := by
  obtain ⟨t, ht, h⟩ := (Option.any_eq_true _ _).mp h
  obtain ⟨e, he, h⟩ := (Option.any_eq_true _ _).mp h
  obtain ⟨r, hr⟩ := Option.isSome_iff_exists.mp h
  exact ⟨t, e, _, r, toOption_eq_some.mp ht, Prod.ext (toOption_eq_some.mp he) rfl, hr⟩

/-- The first resource stems from the first run, in which nothing comes before it. -/
theorem Origin.of_zero {depth leafDepth : Nat} {run : Run x depth} {leaf : Run x leafDepth} {decl : ResourceDeclaration}
    {r : ResourceValue} {inner : Option ExpandedDeployment} {P : {depth : Nat} → Run x depth → Prop}
    (ho : Origin x run 0 leaf decl r inner) (h : P leaf) : P run := by
  obtain ⟨i, hi⟩ : ∃ i, i = 0 := ⟨0, rfl⟩
  rw [← hi] at ho
  cases ho with
  | own => exact h
  | nested => omega

/-- Of two resources that are not meant by each other's id, each is meant alone. -/
theorem eq_of_isMeant {a b r : ResourceValue} (hab : Ledger.isMeant a.identity.id a.identity.name b.identity.id = false)
    (hba : Ledger.isMeant b.identity.id b.identity.name a.identity.id = false) (hr : r = a ∨ r = b) :
    ∀ r' ∈ [a, b], Ledger.isMeant r'.identity.id r'.identity.name r.identity.id = true → r' = r := by
  intro r' hr' hm
  rcases List.mem_pair.mp hr' with rfl | rfl <;> rcases hr with rfl | rfl
  · rfl
  · exact absurd hm (Bool.eq_false_iff.mp hab)
  · exact absurd hm (Bool.eq_false_iff.mp hba)
  · rfl

/-- The first of the two resources is read by its id at the end of the run. -/
theorem expand_publishes_note :
    ∃ t e log, Template.ofJson (shadowing "w") = .ok t ∧ small.expand t [] = (.ok e, log) ∧
      ∃ (run : Run small small.options.maxDepth) (r : ResourceValue), run.Gives e ∧ e.resources[0]? = some r ∧
        run.Identifies r ∧ ∀ s,
          outcome (Expr.eval (run.deployment.host run.final.ledger) []
            (.call none "reference" [.str r.identity.id] default)) s = (.ok r.properties, s) ∧
          outcome (Expr.eval (run.deployment.host run.final.ledger) []
            (.call none "reference" [.str r.identity.id, .str "2020-01-01", .str "Full"] default)) s =
            (.ok r.toJson, s) := by
  obtain ⟨t, e, log, r, ht, he, hi⟩ : ∃ t e log r, Template.ofJson (shadowing "w") = .ok t ∧
    small.expand t [] = (.ok e, log) ∧ e.resources[0]? = some r := expands_shadowing (by decide +kernel)
  obtain ⟨run, hroot, hall⟩ := expand_publishes ht he
  obtain ⟨leafDepth, leaf, decl, inner, ho, hp⟩ := hall 0 r hi
  have hp : run.Publishes r := Origin.of_zero (P := fun run => run.Publishes r) ho hp
  obtain ⟨a, b, hr, hall, hab, hba, -, -, hk⟩ := run.of_settlesTwo (fun l a b =>
    !l.symbols.contains (Ledger.addressed a.identity.id) && !l.symbols.contains (Ledger.addressed b.identity.id))
    ht hroot.created (by decide +kernel)
  simp only [Bool.and_eq_true, Bool.not_eq_true'] at hk
  have hab' : r = a ∨ r = b := List.mem_pair.mp (hr ▸ hp.emitted)
  have hone : run.Identifies r :=
    ⟨hall ▸ eq_of_isMeant hab hba hab', by rcases hab' with rfl | rfl <;> simp [hk]⟩
  have hpasses : run.Passes run.history run.final := ⟨run.reached, List.prefix_refl _⟩
  have hmem : r ∈ run.history.resources := run.recorded.resources ▸ hp.emitted
  have hread := hp.reads hone _ _ hpasses hmem (run.deployment.slotCount + 1) []
  exact ⟨t, e, log, ht, he, run, r, hroot.toGives, hi, hone, fun s =>
    ⟨hread s s false _ (.latest rfl rfl), hread s s true _ (.full rfl rfl rfl rfl rfl)⟩⟩

/-- The id of a resource that ends in an index may begin with a symbol. It then addresses the resource of the symbol,
although it is no symbol and means one resource alone. -/
theorem reference_taken_for_symbol :
    ∃ t e log, Template.ofJson (shadowing "/subscriptions/s/resourceGroups/g/providers/A/b/x") = .ok t ∧
      small.expand t [] = (.ok e, log) ∧ ∃ (run : Run small small.options.maxDepth) (r r' : ResourceValue),
        run.Gives e ∧ r ∈ run.final.ledger.resources ∧ noteOf r = some "own" ∧
        (∀ r'' ∈ run.final.ledger.allResources,
          Ledger.isMeant r''.identity.id r''.identity.name r.identity.id = true → r'' = r) ∧
        run.final.ledger.symbols.contains r.identity.id = false ∧ noteOf r' = some "other" ∧
        ∀ s, outcome (Expr.eval (run.deployment.host run.final.ledger) []
          (.call none "reference" [.str r.identity.id] default)) s = (.ok r'.properties, s) := by
  obtain ⟨t, e, log, -, ht, he, -⟩ : ∃ t e log r,
    Template.ofJson (shadowing "/subscriptions/s/resourceGroups/g/providers/A/b/x") = .ok t ∧
      small.expand t [] = (.ok e, log) ∧ e.resources[0]? = some r := expands_shadowing (by decide +kernel)
  obtain ⟨run, hroot⟩ := exists_isRoot ht he
  obtain ⟨r', r, hr, hall, hm, hm', hn', hn, hk⟩ := run.of_settlesTwo (fun l _ r =>
    !l.symbols.contains r.identity.id && noteAt l r.identity.id == some "other") ht hroot.created (by decide +kernel)
  simp only [Bool.and_eq_true, Bool.not_eq_true', beq_iff_eq] at hk
  obtain ⟨hsymbol, hk⟩ := hk
  obtain ⟨r'', hf, hn''⟩ := find_of_noteAt hk
  refine ⟨t, e, log, ht, he, run, r, r'', hroot.toGives, by simp [hr], hn, hall ▸ eq_of_isMeant hm hm' (.inr rfl),
    hsymbol, hn'', fun s => ?_⟩
  rw [Expr.outcome_reference rfl rfl]
  exact outcome_resolve_found hf _ s

end Expander
end ResourceTemplate
