import ResourceTemplate.Proofs.Expander.Nesting

namespace ResourceTemplate

namespace Order.InOrder

variable {nodes : List DependencyNode} {order : List Nat}

theorem of_ok (h : expansionOrder nodes = .ok order) : InOrder nodes order := by
  refine ⟨expansionOrder_perm h, ?_⟩
  obtain ⟨-, rfl⟩ := expansionOrder_ok h
  exact fun k i hi => (placed_placed nodes).next_of_reverse hi

/-- A node stands before every later one of the template, unless it depends on one that does not. -/
theorem idxOf_lt (h : InOrder nodes order) {i j : Nat} (hi : i < nodes.length) (hj : j < nodes.length)
    (hlt : ordinal nodes i < ordinal nodes j)
    (hd : ∀ k, DependsOn nodes i k → order.idxOf k < order.idxOf j) :
    order.idxOf i < order.idxOf j := by
  have hmem {k : Nat} (hk : k < nodes.length) : k ∈ order := by
    rw [h.perm.mem_iff]
    exact List.mem_range.mpr hk
  have hn := h.next (order.idxOf j) j (List.getElem?_idxOf (hmem hj))
  by_contra hge
  have hnot : i ∉ order.take (order.idxOf j) := fun hm =>
    hge ((List.mem_take_iff_idxOf_lt (hmem hi)).mp hm)
  have hready : ∀ k, DependsOn nodes i k → k ∈ order.take (order.idxOf j) := by
    intro k hk
    obtain ⟨node, -, -, hkl⟩ := id hk
    exact (List.mem_take_iff_idxOf_lt (hmem hkl)).mpr (hd k hk)
  have hp := hn.least i hi hnot hready
  unfold Precedes at hp
  omega

end Order.InOrder

namespace Expander

variable {x : Expander} {nested : Nested} {d : Deployment} {plan : Plan} {p₀ : Progress}

/-- The nodes that a plan orders: one for each declaration, with the dependencies of the plan. -/
structure Orders (d : Deployment) (l : Ledger) (plan : Plan) (nodes : List DependencyNode) : Prop where
  order : expansionOrder nodes = .ok plan.order
  ordinals : nodes.map DependencyNode.ordinal = d.template.resources.map ResourceDeclaration.ordinal
  labels : nodes.map DependencyNode.label = d.template.resources.map fun decl => l.label decl.ordinal
  dependencies : nodes.map DependencyNode.dependsOn = plan.dependencies

theorem plan_orders {l : Ledger} {s t : Scope} (hl : l.declarations = d.template.resources)
    (h : outcome (Expander.plan d l) s = (.ok plan, t)) : ∃ nodes, Orders d l plan nodes := by
  unfold Expander.plan at h
  obtain ⟨nodes, u, hm, h⟩ := outcome_bind_eq_ok.mp h
  have hf := outcome_mapM_ok hm
  rw [hl] at hf
  cases ho : expansionOrder nodes with
  | error cycle =>
    simp only [ho] at h
    cases h
  | ok order =>
    simp only [ho] at h
    cases h
    have hnodes : List.Forall₂ (fun (decl : ResourceDeclaration) (node : DependencyNode) =>
        node.ordinal = decl.ordinal ∧ node.label = l.label decl.ordinal) d.template.resources nodes := by
      refine hf.imp ?_
      rintro decl node ⟨s, t, hnode⟩
      obtain ⟨is, v, -, he⟩ := outcome_bind_eq_ok.mp hnode
      cases he
      exact ⟨rfl, rfl⟩
    refine ⟨nodes, ho, ?_, ?_, rfl⟩
    · rw [← List.forall₂_eq_eq_eq, List.forall₂_map_left_iff, List.forall₂_map_right_iff]
      exact (hnodes.imp fun _ _ h => h.1).flip
    · rw [← List.forall₂_eq_eq_eq, List.forall₂_map_left_iff, List.forall₂_map_right_iff]
      exact (hnodes.imp fun _ _ h => h.2).flip

theorem prepare_orders {s : Scope} (hn : Template.NumberedFrom 0 d.template.resources)
    (h : outcome (prepare d) (.start s d.template.resources) = (.ok plan, p₀)) :
    ∃ nodes, Orders d p₀.ledger plan nodes := by
  have hu := (prepare_ok hn h).1
  unfold prepare at h
  obtain ⟨_, u, -, h⟩ := outcome_bind_eq_ok.mp h
  obtain ⟨_, v, -, h⟩ := outcome_bind_eq_ok.mp h
  obtain ⟨_, _, hg, h⟩ := outcome_bind_eq_ok.mp h
  cases hg
  obtain ⟨t, hp, rfl⟩ := ExpandM.outcome_onScope_eq_ok.mp h
  exact plan_orders hu.declarations hp

namespace Orders

variable {l : Ledger} {nodes : List DependencyNode}

theorem length_eq (h : Orders d l plan nodes) : nodes.length = d.template.resources.length := by
  simpa using congrArg List.length h.ordinals

theorem ordinal_eq (h : Orders d l plan nodes) (hn : Template.NumberedFrom 0 d.template.resources)
    {i : Nat} (hi : i < nodes.length) : Order.ordinal nodes i = i := by
  have ho := congrArg (fun is : List Nat => is[i]?) (h.ordinals.trans hn.ordinals)
  have hlt : i < d.template.resources.length := h.length_eq ▸ hi
  simpa [Order.ordinal, hi, List.getElem?_range' hlt] using ho

theorem dependsOn_iff (h : Orders d l plan nodes) {i j : Nat} (hj : j < nodes.length) :
    Order.DependsOn nodes i j ↔ j ∈ plan.dependenciesOf i := by
  unfold Order.DependsOn Plan.dependenciesOf
  rw [← h.dependencies, List.getElem?_map]
  cases nodes[i]? with
  | none => simp
  | some node => simp [hj]

end Orders

/-- No attempt that passes over pending declarations come to is put off or ends the expansion: one that fails
settles its declaration. -/
def Decisive (x : Expander) (nested : Nested) (d : Deployment) (plan : Plan) (is : List Nat)
    (p : Progress) : Prop :=
  ∀ decl q, Tries x nested d plan is p decl q →
    readiness q.ledger (plan.dependenciesOf decl.ordinal) = .ready →
    ∀ e s, AttemptFails x nested d plan decl q e s → e.isStructural = false ∧ e.isUnresolved = false

theorem outcome_settleAt {i : Nat} {p : Progress} {decl : ResourceDeclaration}
    (hd : p.ledger.declarations[i]? = some decl) :
    outcome (x.settleAt nested d plan i) p = outcome (x.settle nested d plan decl) p := by
  unfold settleAt
  rw [outcome_bind, outcome_get]
  simp only [hd]

theorem pass_cons_of_settled {i : Nat} {is deferred : List Nat} {p m q : Progress}
    (hs : outcome (x.settleAt nested d plan i) p = (.ok true, m))
    (hp : outcome (x.pass nested d plan is) m = (.ok deferred, q)) :
    outcome (x.pass nested d plan (i :: is)) p = (.ok deferred, q) :=
  outcome_pass_cons hs hp

/-- What passes come to after a declaration that is settled, they come to. -/
theorem Tries.cons {i : Nat} {is : List Nat} {p m q : Progress} {decl : ResourceDeclaration}
    (hs : outcome (x.settleAt nested d plan i) p = (.ok true, m))
    (h : Tries x nested d plan is m decl q) : Tries x nested d plan (i :: is) p decl q := by
  cases h with
  | @turn before after deferred j _ _ _ hp hd =>
    have ht : Tries x nested d plan ((i :: before) ++ j :: after) p decl q :=
      .turn (pass_cons_of_settled hs hp) hd
    exact ht
  | again hp hn h =>
    refine .again (pass_cons_of_settled hs hp) ?_ h
    have hle := length_pass_le hp
    rw [List.length_cons]
    omega

/-- What passes come to if the first one leaves nothing: the first declaration as it is, or what they come to after
it. -/
theorem Tries.of_cons {i : Nat} {is : List Nat} {p m q u : Progress} {decl : ResourceDeclaration}
    (hs : outcome (x.settleAt nested d plan i) p = (.ok true, m))
    (hp : outcome (x.pass nested d plan is) m = (.ok [], q)) (h : Tries x nested d plan (i :: is) p decl u) :
    u = p ∧ p.ledger.declarations[i]? = some decl ∨ Tries x nested d plan is m decl u := by
  rcases tries_cons_iff.mp h with ⟨before, j, after, deferred, hsplit, hb, hd⟩ | ⟨deferred, v, hall, -, hagain⟩
  · cases before with
    | nil =>
      cases hsplit
      cases hb
      exact .inl ⟨rfl, hd⟩
    | cons first before =>
      obtain ⟨rfl, rfl⟩ := List.cons.inj hsplit
      rw [pass_cons] at hb
      obtain ⟨settled, m', hs', hb⟩ := outcome_bind_eq_ok.mp hb
      rw [hs] at hs'
      cases hs'
      obtain ⟨others, v, hb, hv⟩ := outcome_bind_eq_ok.mp hb
      cases hv
      exact .inr (.turn hb hd)
  · -- the first pass leaves none for another
    rw [pass_cons_of_settled hs hp] at hall
    cases hall
    exact absurd hagain not_tries_nil

theorem readiness_ne_waiting {l : Ledger} {ks : List Nat} (h : ∀ k ∈ ks, l.state k ≠ .pending) :
    readiness l ks ≠ .waiting := by
  induction ks with
  | nil => simp [readiness]
  | cons k ks ih =>
    rw [List.forall_mem_cons] at h
    unfold readiness
    cases hs : l.state k with
    | pending => exact absurd hs h.1
    | failed => simp
    | expanded => exact ih h.2
    | skipped => exact ih h.2

/-- A declaration that does not wait and whose attempt is not put off is settled by its turn. -/
theorem Turn.settles_of {decl : ResourceDeclaration} {p q : Progress}
    {r : Except ExpandError (Option Settlement)} (h : Turn x nested d plan decl p r q)
    (hw : readiness p.ledger (plan.dependenciesOf decl.ordinal) ≠ .waiting)
    (ha : readiness p.ledger (plan.dependenciesOf decl.ordinal) = .ready →
      ∀ e s, AttemptFails x nested d plan decl p e s → e.isStructural = false ∧ e.isUnresolved = false) :
    ∃ e, r = .ok (some e) ∧ e.declaration = decl := by
  cases h with
  | waits h => exact absurd h hw
  | dependencyFailed dependency h => exact ⟨_, rfl, rfl⟩
  | commits instances s q hr ht hc => exact ⟨_, rfl, rfl⟩
  | refers e s hr ht hs hu =>
    rw [(ha hr e s ht).2] at hu
    cases hu
  | fails e s hr ht hs hu => exact ⟨_, rfl, rfl⟩
  | ends e s hr ht hs =>
    rw [(ha hr e s ht).1] at hs
    cases hs

/-- The first of the declarations that are pending does not wait if all that it waits for is settled, and its turn
settles it. -/
theorem settles_first {i : Nat} {is : List Nat} {h : History} {p : Progress} (hu : Unsettled d p₀)
    (hr : Reached x nested d plan p₀ h p) (hi : Pending d p (i :: is))
    (hdec : Decisive x nested d plan (i :: is) p) (hdep : ∀ k ∈ plan.dependenciesOf i, k ∈ h.ordinals) :
    ∃ decl e m, d.template.resources[i]? = some decl ∧
      readiness p.ledger (plan.dependenciesOf decl.ordinal) ≠ .waiting ∧
      Turn x nested d plan decl p (.ok (some e)) m ∧
      outcome (x.settleAt nested d plan i) p = (.ok true, m) ∧ e.ordinal = i ∧
      Reached x nested d plan p₀ (h ++ [e]) m ∧ Pending d m is := by
  obtain ⟨decl, hd⟩ : ∃ decl, d.template.resources[i]? = some decl :=
    ⟨_, List.getElem?_eq_getElem (hi.bound i List.mem_cons_self)⟩
  have hpd : p.ledger.declarations[i]? = some decl := by rw [hi.declarations, hd]
  obtain rfl : decl.ordinal = i := hu.numbered.ordinal hd
  have hw : readiness p.ledger (plan.dependenciesOf decl.ordinal) ≠ .waiting :=
    readiness_ne_waiting fun k hk => ((hr.recorded hu).mem_ordinals_iff k).mp (hdep k hk)
  have hnone : outcome (x.pass nested d plan []) p = (.ok [], p) := rfl
  have hfirst : Tries x nested d plan ([] ++ decl.ordinal :: is) p decl p := .turn hnone hpd
  obtain ⟨r, m, ht, hs⟩ := settle_turn x nested d plan decl p
  obtain ⟨e, rfl, he⟩ := ht.settles_of hw (hdec _ p hfirst)
  rw [← outcome_settleAt hpd] at hs
  have hm := Reached.turn hr (List.mem_of_getElem? hd) (hi.pending _ List.mem_cons_self) ht
  exact ⟨decl, e, m, hd, hw, ht, hs, congrArg ResourceDeclaration.ordinal he, hm, hi.tail ht⟩

/-- A pass over declarations each of which comes after those that it waits for settles them in turn. -/
theorem pass_settles {is : List Nat} {h : History} {p : Progress} (hu : Unsettled d p₀)
    (hr : Reached x nested d plan p₀ h p) (hi : Pending d p is)
    (hdec : Decisive x nested d plan is p)
    (hdep : ∀ before i after, is = before ++ i :: after →
      ∀ k ∈ plan.dependenciesOf i, k ∈ h.ordinals ∨ k ∈ before) :
    ∃ tr q, PassRun x nested d plan is p tr (.ok []) q ∧
      outcome (x.pass nested d plan is) p = (.ok [], q) ∧ tr.history.ordinals = is ∧
      ∀ decl m, Tries x nested d plan is p decl m →
        readiness m.ledger (plan.dependenciesOf decl.ordinal) ≠ .waiting := by
  induction is generalizing h p with
  | nil => exact ⟨[], p, .nil p, rfl, rfl, fun _ _ ht => absurd ht not_tries_nil⟩
  | cons i is ih =>
    have hfirst : ∀ k ∈ plan.dependenciesOf i, k ∈ h.ordinals := fun k hk =>
      (hdep [] i is rfl k hk).resolve_right List.not_mem_nil
    obtain ⟨decl, e, m, hd, hw, ht, hs, he, hm, htail⟩ := settles_first hu hr hi hdec hfirst
    have hdeptail : ∀ before j after, is = before ++ j :: after → ∀ k ∈ plan.dependenciesOf j,
        k ∈ History.ordinals (h ++ [e]) ∨ k ∈ before := by
      intro before j after hsplit k hk
      rw [History.ordinals, List.map_append, List.mem_append]
      rcases hdep (i :: before) j after (by rw [hsplit, List.cons_append]) k hk with hk | hk
      · exact .inl (.inl hk)
      · rcases List.mem_cons.mp hk with rfl | hk
        · exact .inl (.inr (by simp [he]))
        · exact .inr hk
    obtain ⟨tr, q, hrun, hpass, hord, hready⟩ := ih hm htail (fun decl q ht => hdec decl q (ht.cons hs))
      hdeptail
    refine ⟨⟨some e, m⟩ :: tr, q, .turn hd ht hrun, pass_cons_of_settled hs hpass, ?_, ?_⟩
    · rw [Trace.history_cons, History.ordinals, List.map_append]
      exact congrArg₂ List.append (congrArg (fun i => [i]) he) hord
    · intro decl' u hu
      rcases hu.of_cons hs hpass with ⟨rfl, hdecl⟩ | hu
      · rw [hi.declarations, hd] at hdecl
        cases hdecl
        exact hw
      · exact hready decl' u hu

theorem AttemptFails.outcome_eq {decl : ResourceDeclaration} {p : Progress} {e : ExpandError} {s : Scope}
    (h : AttemptFails x nested d plan decl p e s) :
    outcome (x.expandDeclaration nested d plan decl) p = (.error e, { p with scope := s }) := by
  rw [outcome_expandDeclaration]
  cases h with
  | expanding h => rw [h]
  | entering instances h hc =>
    rw [h]
    simp only [hc]

/-- A turn that settles its declaration is of no attempt that is put off or ends the expansion. -/
theorem Turn.decisive {decl : ResourceDeclaration} {p q : Progress} {t : Settlement}
    (h : Turn x nested d plan decl p (.ok (some t)) q)
    (hr : readiness p.ledger (plan.dependenciesOf decl.ordinal) = .ready) {e : ExpandError} {s : Scope}
    (ha : AttemptFails x nested d plan decl p e s) : e.isStructural = false ∧ e.isUnresolved = false := by
  have ho := ha.outcome_eq
  cases h with
  | dependencyFailed dependency hf =>
    rw [hr] at hf
    cases hf
  | commits instances s' q hr' ha' hc =>
    rw [outcome_expandDeclaration, ha'] at ho
    simp only [hc] at ho
    cases ho
  | fails e' s' hr' ha' hs hu =>
    rw [ha'.outcome_eq] at ho
    cases ho
    exact ⟨hs, hu⟩

/-- A pass that leaves nothing pending puts no attempt off. -/
theorem decisive_of_pass {is : List Nat} {p q : Progress}
    (h : outcome (x.pass nested d plan is) p = (.ok [], q)) : Decisive x nested d plan is p := by
  induction is generalizing p q with
  | nil => exact fun decl m ht => absurd ht not_tries_nil
  | cons i is ih =>
    intro decl m ht hr e s ha
    rw [pass_cons] at h
    obtain ⟨settled, u, hs, h⟩ := outcome_bind_eq_ok.mp h
    obtain ⟨deferred, v, hpass, hv⟩ := outcome_bind_eq_ok.mp h
    cases settled with
    | false => cases hv
    | true =>
      obtain rfl : deferred = [] := by simpa using congrArg Prod.fst hv
      rcases ht.of_cons hs hpass with ⟨rfl, hd⟩ | ht
      · obtain ⟨r, w, hturn, hw⟩ := settle_turn x nested d plan decl m
        rw [outcome_settleAt hd, hw] at hs
        cases r with
        | error e => cases hs
        | ok t? =>
          cases t? with
          | none => cases hs
          | some t => exact hturn.decisive hr ha
      · exact ih hpass decl m ht hr e s ha

/-- Passes end with the first one if it leaves nothing pending; none is made where nothing is. -/
theorem PassRun.loop_of_nil {is : List Nat} {p q : Progress} {tr : Trace}
    (hrun : PassRun x nested d plan is p tr (.ok []) q)
    (hpass : outcome (x.pass nested d plan is) p = (.ok [], q)) :
    ∃ n ≤ 1, Loop x nested d plan n is p tr (.ok ()) q ∧
      outcome (x.passes nested d plan is.length is) p = (.ok (), q) := by
  cases is with
  | nil =>
    cases hrun
    exact ⟨0, Nat.zero_le 1, .done p, rfl⟩
  | cons i is =>
    refine ⟨1, le_refl 1, ?_, ?_⟩
    · have hloop := Loop.again (List.cons_ne_nil i is) hrun (.inr rfl) (.done q)
      rwa [List.append_nil] at hloop
    · have hlength : ¬(([] : List Nat).length = is.length + 1) := by simp
      rw [List.length_cons, passes, outcome_bind, hpass]
      simp only [hlength, if_false, passes]
      rfl

/-- An expansion none of whose attempts is put off settles all declarations in one pass, in the order that is found for
the nodes of its plan, and finds none of them waiting. What it emits are the blocks of the declarations in that
order. A declaration comes before the later ones of the template, but for those before which something comes that it
waits for. -/
theorem settleAll_in_order (x : Expander) (nested : Nested) {v : Json} {s : Scope}
    (ht : Template.ofJson v = .ok d.template)
    (h₀ : outcome (prepare d) (.start s d.template.resources) = (.ok plan, p₀))
    (hdec : Decisive x nested d plan plan.order p₀) :
    ∃ nodes n tr q, Orders d p₀.ledger plan nodes ∧ n ≤ 1 ∧
      Loop x nested d plan n plan.order p₀ tr (.ok ()) q ∧
      outcome (x.settleAll nested d plan) p₀ = (.ok (), q) ∧
      outcome (x.pass nested d plan plan.order) p₀ = (.ok [], q) ∧
      (∀ decl m, Tries x nested d plan plan.order p₀ decl m →
        readiness m.ledger (plan.dependenciesOf decl.ordinal) ≠ .waiting) ∧
      tr.history.ordinals = plan.order ∧
      q.emitted = tr.history.flatMap (fun e => e.instances.flatMap Instance.block) ∧
      Order.InOrder nodes plan.order ∧
      ∀ i j, i < j → j < d.template.resources.length →
        (∀ k ∈ plan.dependenciesOf i, plan.order.idxOf k < plan.order.idxOf j) →
        plan.order.idxOf i < plan.order.idxOf j := by
  have hn := Template.ofJson_numbered ht
  obtain ⟨hu, hp⟩ := prepare_ok hn h₀
  obtain ⟨nodes, ho⟩ := prepare_orders hn h₀
  have horder := Order.InOrder.of_ok ho.order
  have hi := hu.pending hp
  have hdep : ∀ before i after, plan.order = before ++ i :: after →
      ∀ k ∈ plan.dependenciesOf i, k ∈ History.ordinals [] ∨ k ∈ before := by
    intro before i after hsplit k hk
    have hb : plan.order[before.length]? = some i := by simp [hsplit]
    have hmem : i ∈ plan.order := List.mem_of_getElem? hb
    have hlt := hi.bound i hmem
    have hkl : k < nodes.length := by
      have hd := hu.numbered.ordinal (List.getElem?_eq_getElem hlt)
      rw [ho.length_eq]
      exact hp.lt hu (List.getElem_mem hlt) (by rw [hd]; exact hk)
    have hnext := (horder.next _ i hb).dependencies k ((ho.dependsOn_iff hkl).mpr hk)
    rw [hsplit, List.take_left] at hnext
    exact .inr hnext
  obtain ⟨tr, q, hrun, hpass, hord, hready⟩ := pass_settles hu .start hi hdec hdep
  obtain ⟨n, hle, hloop, hall⟩ := hrun.loop_of_nil hpass
  have hemitted : q.emitted = tr.history.flatMap (fun e => e.instances.flatMap Instance.block) := by
    have hr := ((hrun.reached hn hi .start).1.recorded hu).emitted
    rw [hr, List.nil_append, History.instances, List.flatMap_assoc]
  refine ⟨nodes, n, tr, q, ho, hle, hloop, hall, hpass, hready, hord, hemitted, horder, ?_⟩
  intro i j hij hj hbefore
  rw [← ho.length_eq] at hj
  have hil : i < nodes.length := Nat.lt_trans hij hj
  refine horder.idxOf_lt hil hj ?_ ?_
  · rw [ho.ordinal_eq hn hil, ho.ordinal_eq hn hj]
    exact hij
  · intro k hk
    obtain ⟨node, -, -, hkl⟩ := id hk
    exact hbefore k ((ho.dependsOn_iff hkl).mp hk)

/-- Resources that are given before the one that they wait for: one whose name is not a text fails, one waits for that
one, one is not deployed, and the last two are in the order of the template. -/
def mixedOrder : Json := .obj
  [("resources", .arr
    [.obj [("type", .str "A/b"), ("name", .str "waits"), ("dependsOn", .arr [.str "base"])],
     .obj [("type", .str "A/b"), ("name", .str "fails"), ("tags", .str "[parameters('none')]")],
     .obj [("type", .str "A/b"), ("name", .str "follows"), ("dependsOn", .arr [.str "fails"])],
     .obj [("type", .str "A/b"), ("name", .str "skipped"), ("condition", .bool false)],
     .obj [("type", .str "A/b"), ("name", .str "base")]])]

theorem settleAll_in_order_mixedOrder :
    ∃ d plan p₀ q, Template.ofJson mixedOrder = .ok d.template ∧
      outcome (prepare d) (.start {} d.template.resources) = (.ok plan, p₀) ∧
      Decisive small small.refuseNested d plan plan.order p₀ ∧ plan.order = [1, 2, 3, 4, 0] ∧
      outcome (small.settleAll small.refuseNested d plan) p₀ = (.ok (), q) ∧
      ∃ tr : Trace, tr.history.ordinals = [1, 2, 3, 4, 0] ∧
        q.emitted = tr.history.flatMap (fun e => e.instances.flatMap Instance.block) := by
  have hc : prepares small.options mixedOrder fun d plan p₀ =>
      plan.order = [1, 2, 3, 4, 0] &&
        (outcome (small.pass small.refuseNested d plan plan.order) p₀).1.toOption = some [] := by
    decide +kernel
  obtain ⟨d, plan, p₀, ht, h₀, hc⟩ := exists_of_prepares hc
  simp only [Bool.and_eq_true, decide_eq_true_eq] at hc
  obtain ⟨horder, hpass⟩ := hc
  have hdec : Decisive small small.refuseNested d plan plan.order p₀ :=
    decisive_of_pass (Prod.ext (toOption_eq_some.mp hpass) rfl)
  obtain ⟨nodes, n, tr, q, -, -, -, hall, -, -, hord, hemitted, -⟩ :=
    settleAll_in_order small small.refuseNested ht h₀ hdec
  exact ⟨d, plan, p₀, q, ht, h₀, hdec, horder, hall, tr, hord.trans horder, hemitted⟩

end Expander
end ResourceTemplate
