import ResourceTemplate.Proofs.Deployment.ResourceIds
import ResourceTemplate.Proofs.Expander.Preparation
import ResourceTemplate.Proofs.Expander.SinglePass

namespace ResourceTemplate

namespace Expander

variable {x : Expander} {nested : Nested} {d : Deployment} {plan : Plan} {p₀ : Progress} {l : Ledger}

theorem mem_dependencyTextsFrom {pointer text : String} {entry : Json} {entries : List Json}
    (ht : ∀ here s, (outcome (d.eval l here entry) s).1 = .ok (.str text)) (he : entry ∈ entries) {i : Nat}
    {texts : List String} {s t : Scope}
    (h : outcome (dependencyTextsFrom d l pointer i entries) s = (.ok texts, t)) : text ∈ texts := by
  induction entries generalizing i texts s with
  | nil => cases he
  | cons first entries ih =>
    obtain ⟨own, u, hown, h⟩ := outcome_bind_eq_ok.mp h
    obtain ⟨others, _, hothers, h⟩ := outcome_bind_eq_ok.mp h
    cases h
    rcases List.mem_cons.mp he with rfl | he
    · unfold dependencyText at hown
      obtain ⟨r, v, hr, hown⟩ := outcome_bind_eq_ok.mp hown
      rw [ScopeM.outcome_attempt, Prod.mk.injEq] at hr
      obtain ⟨hr, rfl⟩ := hr
      rw [ExpandError.caught_eq_ok hr, ht] at hown
      cases hown
      exact List.mem_cons_self
    · exact List.mem_cons_of_mem _ (ih he hothers)

/-- A declaration without a loop depends on the text of each of its entries that is always evaluated to it. -/
theorem mem_dependencyTexts {decl : ResourceDeclaration} {text : String} {entry : Json} (hc : decl.copy = none)
    (ht : ∀ here s, (outcome (d.eval l here entry) s).1 = .ok (.str text)) (he : entry ∈ decl.dependsOn)
    (hne : text ≠ "") {texts : List String} {s t : Scope}
    (h : outcome (dependencyTexts d l decl) s = (.ok texts, t)) : text ∈ texts := by
  unfold dependencyTexts at h
  have hsome : decl.dependsOn.isEmpty = false := by
    rw [List.isEmpty_eq_false_iff]
    exact List.ne_nil_of_mem he
  rw [hsome, if_neg Bool.false_ne_true, hc] at h
  obtain ⟨all, u, hall, h⟩ := outcome_bind_eq_ok.mp h
  cases h
  rw [List.mem_eraseDups, List.mem_filter]
  exact ⟨mem_dependencyTextsFrom ht he hall, by simpa using hne⟩

theorem Orders.idxOf_lt {nodes : List DependencyNode} (h : Orders d l plan nodes) {i j : Nat}
    (hi : i < nodes.length) (hj : j < nodes.length) (hd : j ∈ plan.dependenciesOf i) :
    plan.order.idxOf j < plan.order.idxOf i := by
  have horder := Order.InOrder.of_ok h.order
  have hmem {k : Nat} (hk : k < nodes.length) : k ∈ plan.order := by
    rw [horder.perm.mem_iff]
    exact List.mem_range.mpr hk
  have hn := horder.next (plan.order.idxOf i) i (List.getElem?_idxOf (hmem hi))
  exact (List.mem_take_iff_idxOf_lt (hmem hj)).mp (hn.dependencies j ((h.dependsOn_iff hj).mpr hd))

theorem readiness_failed {is : List Nat} {dependency : String} (h : readiness l is = .failed dependency) :
    ∃ i ∈ is, l.state i = .failed := by
  induction is with
  | nil => cases h
  | cons i is ih =>
    unfold readiness at h
    cases hs : l.state i with
    | failed => exact ⟨i, List.mem_cons_self, hs⟩
    | pending => simp [hs] at h
    | expanded =>
      simp only [hs] at h
      obtain ⟨j, hj, hf⟩ := ih h
      exact ⟨j, List.mem_cons_of_mem i hj, hf⟩
    | skipped =>
      simp only [hs] at h
      obtain ⟨j, hj, hf⟩ := ih h
      exact ⟨j, List.mem_cons_of_mem i hj, hf⟩

/-- A declaration is settled after all that it depends on, unless it fails because one of these has failed. -/
theorem Reached.settled_after {h before after : History} {e : Settlement} {p : Progress} (h₀ : Unsettled d p₀)
    (hr : Reached x nested d plan p₀ h p) (hh : h = before ++ e :: after) :
    (∀ o ∈ plan.dependenciesOf e.ordinal, o ∈ before.ordinals) ∨
      ∃ dependency, e = .failed e.declaration (.dependencyFailed dependency) ∧
        ∃ e' ∈ before, e'.ordinal ∈ plan.dependenciesOf e.ordinal ∧ e'.state = .failed := by
  obtain ⟨q, m, hq, -, -, ht⟩ := hr.split hh
  have hrec := hq.recorded h₀
  have hsettled (hready : readiness q.ledger (plan.dependenciesOf e.declaration.ordinal) = .ready) :
      ∀ o ∈ plan.dependenciesOf e.declaration.ordinal, o ∈ before.ordinals := by
    intro o ho
    rw [hrec.mem_ordinals_iff]
    rcases readiness_ready hready o ho with hs | hs <;> simp [hs]
  generalize hdecl : e.declaration = decl at ht hsettled
  cases ht with
  | commits _ _ _ hready => exact .inl (hsettled hready)
  | fails _ _ hready => exact .inl (hsettled hready)
  | dependencyFailed dependency hf =>
    obtain ⟨o, ho, hs⟩ := readiness_failed hf
    have hmem : o ∈ before.ordinals := by
      rw [hrec.mem_ordinals_iff]
      simp [hs]
    obtain ⟨e', he', rfl⟩ := List.mem_map.mp hmem
    exact .inr ⟨dependency, rfl, e', he', ho, (hrec.state_of_mem he').symm.trans hs⟩

theorem mem_dependenciesOf_id {k : KnownIdentity} (hk : k ∈ l.known) : k.declaration ∈ dependenciesOf l k.id := by
  unfold dependenciesOf
  rw [List.mem_eraseDups, List.mem_append]
  refine .inr (List.mem_map.mpr ⟨k, List.mem_filter.mpr ⟨hk, ?_⟩, rfl⟩)
  simp [isNamedBy]

theorem outcome_reportUnmatched {decl : ResourceDeclaration} {text : String} {o : Nat}
    (ho : o ∈ dependenciesOf l text) (s : Scope) : outcome (reportUnmatched d l decl text) s = (.ok (), s) := by
  unfold reportUnmatched
  rw [if_neg]
  · rfl
  · rw [List.isEmpty_iff]
    exact List.ne_nil_of_mem ho

/-- Whether a declaration without a loop depends on another one without a loop by an id: an entry of its `dependsOn`
builds the id of the literal type and the literal name of the other, which has an identity. -/
structure DependsById (d : Deployment) (a b : ResourceDeclaration) (type w : String) (r : ResourceIdentity) :
    Prop where
  dependent : a ∈ d.template.resources
  dependency : b ∈ d.template.resources
  ne : a ≠ b
  noLoop : a.copy = none ∧ b.copy = none
  literal : b.IsLiteral type r.name
  identity : d.identity.resourceIdentity type r.name none none none = .ok r
  entry : .str w ∈ a.dependsOn
  builds : ∃ names, names ≠ [] ∧ BuildsId w type names ∧ r.name.toList = Text.joined '/' names

/-- Where a declaration depends on another by an id, and the deployment puts the type of the other where `resourceId`
does, the entry is evaluated to the id of the other at any time. The text means the other and is not reported; the plan
lets the declaration depend on the other and orders it after. So it is settled after the other, unless it fails because
something else that it depends on has failed. -/
theorem Reached.matches_resourceId {v : Json} {s₀ : Scope} {h : History} {p : Progress} {a b : ResourceDeclaration}
    {type w : String} {r : ResourceIdentity} (ht : Template.ofJson v = .ok d.template)
    (h₀ : outcome (prepare d) (.start s₀ d.template.resources) = (.ok plan, p₀))
    (hr : Reached x nested d plan p₀ h p) (hab : DependsById d a b type w r) (hs : d.identity.PlacesAlike type) :
    (∀ pointer s, outcome (d.eval p₀.ledger pointer (.str w)) s = (.ok (.str r.id), s)) ∧
      b.ordinal ∈ dependenciesOf p₀.ledger r.id ∧
      (∀ s, outcome (reportUnmatched d p₀.ledger a r.id) s = (.ok (), s)) ∧
      b.ordinal ∈ plan.dependenciesOf a.ordinal ∧
      plan.order.idxOf b.ordinal < plan.order.idxOf a.ordinal ∧
      ∀ before e after, h = before ++ e :: after → e.declaration = a →
        (∃ e' ∈ before, e'.declaration = b) ∨
          ∃ dependency, e = .failed a (.dependencyFailed dependency) ∧
            ∃ e' ∈ before, e'.ordinal ∈ plan.dependenciesOf a.ordinal ∧ e'.state = .failed := by
  obtain ⟨ha, hb, hne, ⟨hca, hcb⟩, hlit, hid, hw, names, hn, hbuild, hname⟩ := hab
  have hnum := Template.ofJson_numbered ht
  obtain ⟨hu, hp⟩ := prepare_ok hnum h₀
  have heval := Deployment.outcome_eval_buildsId (l := p₀.ledger) hbuild hn hname hid hs
  have hknown : ⟨b.ordinal, r.id, r.name⟩ ∈ p₀.ledger.known := by
    obtain ⟨before, after, hsplit⟩ := List.append_of_mem hb
    obtain ⟨m, identities, s, -, hi, hk⟩ := prepare_collects h₀ hsplit
    have hpreview := Deployment.outcome_previewIdentity_literal (l := m.ledger) hlit hid m.scope
    unfold Deployment.previewIdentities at hi
    rw [hcb] at hi
    dsimp only at hi
    rw [outcome_bind, hpreview] at hi
    cases hi
    exact hk r (List.mem_singleton_self r)
  have hmeant := mem_dependenciesOf_id hknown
  have hordinal : b.ordinal ≠ a.ordinal := by
    intro ho
    have hsame := hnum.getElem? hb
    rw [ho, hnum.getElem? ha] at hsame
    exact hne (Option.some.inj hsame)
  have hempty : r.id ≠ "" := ResourceId.ne_empty_of_under (Deployment.resourceIdentity_ok hid).1
  have hdep : b.ordinal ∈ plan.dependenciesOf a.ordinal := by
    obtain ⟨s, t, texts, htexts, hplan⟩ := hp.dependencies a ha
    have htext := mem_dependencyTexts hca (fun here s => congrArg Prod.fst (heval here s)) hw hempty htexts
    rw [hplan, List.mem_eraseDups, List.mem_append, List.mem_filter, List.mem_flatMap]
    exact .inr ⟨⟨r.id, htext, hmeant⟩, by simpa using hordinal⟩
  obtain ⟨nodes, ho⟩ := prepare_orders hnum h₀
  have hlt {decl : ResourceDeclaration} (hd : decl ∈ d.template.resources) : decl.ordinal < nodes.length :=
    ho.length_eq ▸ hnum.lt_length hd
  refine ⟨heval, hmeant, outcome_reportUnmatched hmeant, hdep, ho.idxOf_lt (hlt ha) (hlt hb) hdep, ?_⟩
  rintro before e after hh rfl
  rcases hr.settled_after hu hh with hall | hfails
  · obtain ⟨e', he', hb'⟩ := List.mem_map.mp (hall _ hdep)
    refine .inl ⟨e', he', ?_⟩
    have hdeclared := (hr.recorded hu).declared e' (hh ▸ List.mem_append_left _ he')
    have hsame := hnum.getElem? hdeclared
    rw [show e'.declaration.ordinal = b.ordinal from hb', hnum.getElem? hb] at hsame
    exact (Option.some.inj hsame).symm
  · exact .inr hfails

/-- A declaration that depends on the one after it by its id, in a template of a schema. -/
def dependentById (schema : String) : Json := .obj
  [("$schema", .str schema),
   ("resources", .arr
    [.obj [("type", .str "A/b"), ("name", .str "x"),
      ("dependsOn", .arr [.str "[resourceId('A/b/c', 'y', 'z')]"])],
     .obj [("type", .str "A/b/c"), ("name", .str "y/z")]])]

/-- Whether the first of two declarations depends on the second by its id, and the second has an identity. -/
def dependsById (d : Deployment) : Bool :=
  match d.template.resources with
  | [a, b] =>
    (a.ordinal, b.ordinal) = (0, 1) ∧ a.copy.isNone ∧ b.copy.isNone ∧ b.IsLiteral "A/b/c" "y/z" ∧
      a.dependsOn.map Json.str? = [some "[resourceId('A/b/c', 'y', 'z')]"] ∧
      (d.identity.resourceIdentity "A/b/c" "y/z" none none none).toOption.isSome
  | _ => false

theorem buildsId_dependentById : BuildsId "[resourceId('A/b/c', 'y', 'z')]" "A/b/c" ["y", "z"] := by
  decide +kernel

theorem exists_of_dependsById (h : dependsById d = true) : ∃ a b r, a.ordinal = 0 ∧ b.ordinal = 1 ∧
    DependsById d a b "A/b/c" "[resourceId('A/b/c', 'y', 'z')]" r := by
  unfold dependsById at h
  split at h
  · rename_i a b hresources
    obtain ⟨ho, hca, hcb, hlit, hdep, hid⟩ := of_decide_eq_true h
    have ha0 : a.ordinal = 0 := congrArg Prod.fst ho
    have hb1 : b.ordinal = 1 := congrArg Prod.snd ho
    obtain ⟨r, hr⟩ := Option.isSome_iff_exists.mp hid
    have hr := toOption_eq_some.mp hr
    have hname := (Deployment.resourceIdentity_ok hr).2
    obtain ⟨entry, hentry, hstr⟩ : ∃ entry ∈ a.dependsOn, entry.str? = some "[resourceId('A/b/c', 'y', 'z')]" :=
      List.mem_map.mp (hdep ▸ List.mem_singleton_self _)
    have hmem : .str "[resourceId('A/b/c', 'y', 'z')]" ∈ a.dependsOn := by
      cases entry with
      | str w => exact Option.some.inj hstr ▸ hentry
      | _ => cases hstr
    refine ⟨a, b, r, ha0, hb1, by simp [hresources], by simp [hresources], ?_, ?_, hname ▸ hlit, hname ▸ hr, hmem,
      ["y", "z"], by simp, buildsId_dependentById, by simp [hname, Text.joined]⟩
    · rintro rfl
      rw [ha0] at hb1
      cases hb1
    · exact ⟨Option.isNone_iff_eq_none.mp hca, Option.isNone_iff_eq_none.mp hcb⟩
  · cases h

theorem Reached.matches_resourceId_dependentById :
    ∃ d plan p₀ h p a b r, Template.ofJson (dependentById "") = .ok d.template ∧
      outcome (prepare d) (.start {} d.template.resources) = (.ok plan, p₀) ∧
      Reached small small.refuseNested d plan p₀ h p ∧
      DependsById d a b "A/b/c" "[resourceId('A/b/c', 'y', 'z')]" r ∧ a.ordinal = 0 ∧ b.ordinal = 1 ∧
      1 ∈ plan.dependenciesOf 0 ∧ plan.order.idxOf 1 < plan.order.idxOf 0 := by
  have hc : prepares small.options (dependentById "") fun d _ _ =>
      dependsById d && d.identity.PlacesAlike "A/b/c" := by
    decide +kernel
  obtain ⟨d, plan, p₀, ht, h₀, hc⟩ := exists_of_prepares hc
  obtain ⟨hdep, hs⟩ := Bool.and_eq_true_iff.mp hc
  obtain ⟨a, b, r, ha0, hb1, hab⟩ := exists_of_dependsById hdep
  obtain ⟨h, hr⟩ := settleAll_reached small small.refuseNested ht h₀
  obtain ⟨-, -, -, hplan, horder, -⟩ := hr.matches_resourceId ht h₀ hab (of_decide_eq_true hs)
  rw [ha0, hb1] at hplan horder
  exact ⟨d, plan, p₀, h, _, a, b, r, ht, h₀, hr, hab, ha0, hb1, hplan, horder⟩

/-- Below a management group the id that `resourceId` gives lacks the id of the group. It means no declaration, which
is reported, and the declaration that depends on the other is committed before it. -/
theorem resourceId_misses_managementGroup :
    ∃ d plan p₀ p a b r instances, Template.ofJson (dependentById "/managementGroupDeploymentTemplate.json") =
        .ok d.template ∧ d.identity.scopeLevel = .managementGroup ∧
      outcome (prepare d) (.start {} d.template.resources) = (.ok plan, p₀) ∧
      DependsById d a b "A/b/c" "[resourceId('A/b/c', 'y', 'z')]" r ∧
      b.ordinal ∉ plan.dependenciesOf a.ordinal ∧
      (Diagnostic.unmatchedDependency "x" "/providers/A/b/y/c/z").located d.identity.name "/resources/0/dependsOn" ∈
        p.scope.diagnostics ∧
      Reached small small.refuseNested d plan p₀ [.committed a instances] p ∧ p.ledger.state b.ordinal = .pending := by
  have hc : commitsFirst small (dependentById "/managementGroupDeploymentTemplate.json") fun d decl _ p =>
      dependsById d && (decide (d.identity.scopeLevel = .managementGroup ∧ decl.ordinal = 0 ∧
        p.ledger.state 1 = .pending) &&
        p.scope.diagnostics.contains ((Diagnostic.unmatchedDependency "x" "/providers/A/b/y/c/z").located
          d.identity.name "/resources/0/dependsOn")) := by
    decide +kernel
  obtain ⟨d, plan, p₀, decl, instances, p, ht, h₀, hd, hr, hc⟩ := exists_of_commitsFirst hc
  obtain ⟨hdep, hc⟩ := Bool.and_eq_true_iff.mp hc
  obtain ⟨hc, hdiag⟩ := Bool.and_eq_true_iff.mp hc
  obtain ⟨hlevel, hdecl, hpending⟩ := of_decide_eq_true hc
  obtain ⟨a, b, r, ha0, hb1, hab⟩ := exists_of_dependsById hdep
  have hnum := Template.ofJson_numbered ht
  have hfirst : decl = a := by
    have hsame := hnum.getElem? hd
    rw [hdecl, ← ha0, hnum.getElem? hab.dependent] at hsame
    exact (Option.some.inj hsame).symm
  subst hfirst
  -- what is committed first depends on nothing
  have hnot : b.ordinal ∉ plan.dependenciesOf decl.ordinal := by
    intro hmem
    rcases hr.settled_after (prepare_ok hnum h₀).1 (List.nil_append _).symm with hall | ⟨_, he, -⟩
    · cases hall _ hmem
    · cases he
  exact ⟨d, plan, p₀, p, decl, b, r, instances, ht, hlevel, h₀, hab, hnot, by simpa using hdiag, hr, hb1 ▸ hpending⟩

end Expander
end ResourceTemplate
