import ResourceTemplate.Proofs.Expander.Run
import ResourceTemplate.Proofs.Resource

namespace ResourceTemplate

theorem getElem?_flatMap_split {α β : Type} {f : α → List β} {xs : List α} {i : Nat} {b : β}
    (h : (xs.flatMap f)[i]? = some b) : ∃ before a after k, xs = before ++ a :: after ∧
      i = (before.flatMap f).length + k ∧ (f a)[k]? = some b := by
  induction xs generalizing i with
  | nil => simp at h
  | cons a xs ih =>
    rw [List.flatMap_cons, List.getElem?_append] at h
    split at h
    · exact ⟨[], a, xs, i, rfl, by simp, h⟩
    · rename_i hi
      obtain ⟨before, a', after, k, rfl, hk, hb⟩ := ih h
      refine ⟨a :: before, a', after, k, rfl, ?_, hb⟩
      rw [List.flatMap_cons, List.length_append]
      omega

namespace History

/-- The ids of all resources that declarations emitted, in their order; another spelling of an id is
left out. -/
def emittedIds (h : History) (ordinals : List Nat) : List String :=
  (ordinals.flatMap h.idsOf).foldl Progress.addId []

/-- Where the resources of an instance of a declaration begin among all that a history emits. -/
def Begins (h : History) (n : Nat) (decl : ResourceDeclaration) (inst : Instance) : Prop :=
  ∃ before after first last, h = before ++ .committed decl (first ++ inst :: last) :: after ∧
    n = ((instances before ++ first).flatMap Instance.block).length

/-- Every resource that a history emits stands in the part of some instance. -/
theorem begins_of_getElem? {h : History} {i : Nat} {r : ResourceValue}
    (hi : (h.instances.flatMap Instance.block)[i]? = some r) :
    ∃ n k decl inst, i = n + k ∧ Begins h n decl inst ∧ inst.block[k]? = some r := by
  unfold instances at hi
  rw [List.flatMap_assoc] at hi
  obtain ⟨before, e, after, m, rfl, rfl, hm⟩ := getElem?_flatMap_split hi
  obtain ⟨first, inst, last, k, he, rfl, hk⟩ := getElem?_flatMap_split hm
  cases e with
  | failed decl error => cases first <;> cases he
  | committed decl instances =>
    simp only [Settlement.instances] at he
    subst he
    refine ⟨_, k, decl, inst, ?_, ⟨before, after, first, last, rfl, rfl⟩, hk⟩
    rw [List.flatMap_append, List.length_append, instances, List.flatMap_assoc]
    omega

/-- The resources of an instance stand in turn from where they begin. -/
theorem Begins.getElem? {h : History} {n : Nat} {decl : ResourceDeclaration}
    {inst : Instance} (hb : Begins h n decl inst) {k : Nat} {r : ResourceValue}
    (hk : inst.block[k]? = some r) : (h.instances.flatMap Instance.block)[n + k]? = some r := by
  obtain ⟨before, after, first, last, rfl, rfl⟩ := hb
  have hlt : k < inst.block.length := (List.getElem?_eq_some_iff.mp hk).1
  have hs : (instances (before ++ .committed decl (first ++ inst :: last) :: after)).flatMap
      Instance.block = (before.instances ++ first).flatMap Instance.block ++ (inst.block ++
        (last ++ instances after).flatMap Instance.block) := by
    simp [instances, List.flatMap_append, List.flatMap_cons]
  rw [hs, List.getElem?_append_right (Nat.le_add_right _ _), Nat.add_sub_cancel_left,
    List.getElem?_append_left hlt, hk]

/-- Every resource that a history emits is that of an instance, or comes with one. -/
theorem own_or_inner {h : History} {i : Nat} {r : ResourceValue}
    (hi : (h.instances.flatMap Instance.block)[i]? = some r) :
    (∃ decl inner, Begins h i decl (.emitted r inner)) ∨
      ∃ n k decl r' e, i = n + 1 + k ∧ Begins h n decl (.emitted r' (some e)) ∧
        e.resources[k]? = some r := by
  obtain ⟨n, k, decl, inst, rfl, hb, hk⟩ := begins_of_getElem? hi
  cases inst with
  | existing r' => simp at hk
  | skipped id => simp at hk
  | emitted r' inner =>
    cases k with
    | zero =>
      cases hk
      exact .inl ⟨decl, inner, hb⟩
    | succ k =>
      cases inner with
      | none => simp at hk
      | some e => exact .inr ⟨n, k, decl, r', e, by omega, hb, by simpa using hk⟩

end History

namespace Expander

variable {x : Expander} {nested : Nested} {d : Deployment} {plan : Plan} {p₀ : Progress}

/-- The instances of a committed declaration depend on all that its dependencies emit, and all of those
are settled before. -/
theorem Reached.committed {h before after : History} {decl : ResourceDeclaration}
    {instances : List Instance} {q : Progress} (h₀ : Unsettled d p₀)
    (hr : Reached x nested d plan p₀ h q) (hh : h = before ++ .committed decl instances :: after) :
    decl ∈ d.template.resources ∧
      (∀ o ∈ plan.dependenciesOf decl.ordinal, h.idsOf o = before.idsOf o) ∧
      ∀ i ∈ instances, i.Fits nested (h.emittedIds (plan.dependenciesOf decl.ordinal)) := by
  obtain ⟨p, m, hp, hd, -, ht⟩ := hr.split hh
  have hrec := hp.recorded h₀
  cases ht with
  | commits _ s _ hready ha hc =>
    -- what it depends on is settled before it and only once, so later turns add nothing to its ids
    have hids : ∀ o ∈ plan.dependenciesOf decl.ordinal, h.idsOf o = before.idsOf o := by
      intro o ho
      have hmem : o ∈ before.ordinals := by
        rw [hrec.mem_ordinals_iff]
        rcases readiness_ready hready o ho with he | he <;> simp [he]
      have hnot : o ∉ History.ordinals (.committed decl instances :: after) := by
        have honce := (hr.recorded h₀).once
        rw [hh, History.ordinals, List.map_append] at honce
        exact fun hm => (List.nodup_append.mp honce).2.2 o hmem o hm rfl
      rw [hh]
      exact History.idsOf_append_of_notMem before hnot
    have hawaited : awaitedIds plan p decl =
        h.emittedIds (plan.dependenciesOf decl.ordinal) := by
      unfold awaitedIds Progress.resolve History.emittedIds
      congr 1
      apply List.flatMap_congr
      intro o ho
      rw [hrec.ids, hids o ho]
    rw [← hawaited]
    exact ⟨hd, hids, yields_expandInstances decl _ _ _ ha⟩

/-- What a resource of a declaration holds: the ids that the dependencies of the declaration emit, in
itself and in its body. The dependencies are the declaration that it stands in and those that its texts
mean, as they are evaluated when the plan is made. -/
structure Run.Demands {depth : Nat} (run : Run x depth) (decl : ResourceDeclaration)
    (r : ResourceValue) : Prop where
  declared : decl ∈ run.deployment.template.resources
  dependencies : ∃ s t texts, PlansFrom run.deployment run.scope decl run.start.ledger s ∧
    outcome (dependencyTexts run.deployment run.start.ledger decl) s = (.ok texts, t) ∧
      run.plan.dependenciesOf decl.ordinal = (decl.parent.toList ++
        (texts.flatMap (dependenciesOf run.start.ledger)).filter (· != decl.ordinal)).eraseDups
  dependsOn : r.dependsOn = run.history.emittedIds (run.plan.dependenciesOf decl.ordinal)
  body : r.body.filter (fun e => Name.same e.1 "dependsOn") =
    if r.dependsOn = [] then [] else [("dependsOn", Json.strings r.dependsOn)]

/-- What a declaration of a run emits is as the declaration demands. -/
theorem Run.demands {depth : Nat} (run : Run x depth) {n : Nat} {decl : ResourceDeclaration}
    {r : ResourceValue} {inner : Option ExpandedDeployment}
    (h : run.history.Begins n decl (.emitted r inner)) : run.Demands decl r := by
  obtain ⟨before, after, first, last, hh, -⟩ := h
  obtain ⟨hd, -, hfits⟩ := run.reached.committed run.unsettled hh
  have he : Emits _ _ r inner := hfits (.emitted r inner) (by simp)
  refine ⟨hd, prepare_dependencies (Template.ofJson_numbered run.read) run.prepared hd, he.dependsOn, ?_⟩
  obtain ⟨identity, evaluated, hb⟩ := he.body
  rw [hb, he.dependsOn]
  exact ResourceValue.makeBody_dependsOn identity evaluated _

end Expander
end ResourceTemplate
