import ResourceTemplate.Proofs.Expander.Emission

namespace ResourceTemplate.Expander

variable {x : Expander} {depth : Nat} {n : Nat} {decl : ResourceDeclaration} {r : ResourceValue}
  {inner : Option ExpandedDeployment} {e : ExpandedDeployment} {identity : DeploymentIdentity} {values : Entries Json}

/-- Whether a run is that of an expansion with the values of a caller, which gives a deployment. -/
structure Run.IsOf (run : Run x depth) (identity : DeploymentIdentity) (values : Entries Json)
    (e : ExpandedDeployment) : Prop where
  created : ∃ log, outcome (Deployment.create run.deployment.template x.options identity values) { log } =
    (.ok run.deployment, run.scope)
  gives : ∃ outputs p, outcome (evalOutputs run.deployment [] run.deployment.template.outputs) run.final =
    (.ok outputs, p) ∧ e = p.result identity.name outputs

theorem exists_isOf {v : Json} {t : Template} {log log' : List Diagnostic} (ht : Template.ofJson v = .ok t)
    (h : x.expandAt depth t identity values log = (.ok e, log')) :
    ∃ run : Run x depth, run.deployment.template = t ∧ run.IsOf identity values e := by
  obtain ⟨run, hc, hgives⟩ := expandAt_evaluated ht h
  obtain ⟨rfl, -, -⟩ := create_ok hc
  exact ⟨run, rfl, ⟨log, hc⟩, hgives⟩

namespace Run.IsOf

variable {run : Run x depth} (h : run.IsOf identity values e)
include h

/-- Nothing is known yet where a deployment was just created. -/
theorem fresh : run.scope.parameters = [] ∧ run.scope.secure = [] := by
  obtain ⟨log, hc⟩ := h.created
  obtain ⟨_, _, hs⟩ := Deployment.create_scope run.deployment.template x.options identity values { log }
  rw [hc] at hs
  rw [show run.scope = _ from hs]
  exact ⟨rfl, rfl⟩

theorem faithful : run.deployment.Faithful run.scope := .fresh h.fresh.1 h.fresh.2

theorem startsFresh : run.Fresh := by
  obtain ⟨_, hc⟩ := h.created
  exact fresh_of_create hc

theorem isSupplied {name : String} {v : Json} (hv : Supplies values name v) : run.deployment.IsSupplied name v := by
  obtain ⟨log, hc⟩ := h.created
  exact Deployment.isSupplied_of_create hc hv

theorem resources : e.resources = run.final.emitted := by
  obtain ⟨outputs, p, hp, rfl⟩ := h.gives
  exact (evalOutputs_keeps hp).1

/-- Every resource that is given is emitted by the run itself or by what is nested in a resource of it. -/
theorem own_or_inner {i : Nat} (hi : e.resources[i]? = some r) :
    (∃ decl inner, run.history.Begins i decl (.emitted r inner)) ∨
      ∃ n k decl r' inner, i = n + 1 + k ∧ run.history.Begins n decl (.emitted r' (some inner)) ∧
        inner.resources[k]? = some r := by
  rw [h.resources, run.recorded.emitted] at hi
  exact History.own_or_inner hi

/-- A resource that a run emits is given where it begins. -/
theorem resources_getElem? (hb : run.history.Begins n decl (.emitted r inner)) : e.resources[n]? = some r := by
  rw [h.resources, run.recorded.emitted]
  exact hb.getElem? (k := 0) rfl

theorem mem_resources (hb : run.history.Begins n decl (.emitted r inner)) : r ∈ e.resources :=
  List.mem_of_getElem? (h.resources_getElem? hb)

theorem inner_subset {inner : ExpandedDeployment} (hb : run.history.Begins n decl (.emitted r (some inner))) :
    inner.resources ⊆ e.resources := by
  obtain ⟨before, after, first, last, hh, -⟩ := hb
  rw [h.resources, run.recorded.emitted, hh]
  intro r' hr'
  simp [History.instances, Settlement.instances, Instance.block, hr']

end Run.IsOf

namespace Emission

/-- Whether a run is that of the deployment nested in a resource, with the values that the body of the resource
supplies. -/
structure Deploys {run : Run x (depth + 1)} (E : Emission run decl r (some e)) (child : Run x depth) : Prop where
  template : ∃ v, x.availableTemplate E.templated (takeTemplate decl.body).2 = .ok v ∧
    Template.ofJson v = .ok child.deployment.template
  isOf : child.IsOf (nestedIdentity run.deployment.identity r.identity.name E.templated
    child.deployment.template.scopeLevel) (suppliedBy E.templated) e

/-- The template of a nested deployment is the one that its resource declares, if any. -/
theorem Deploys.raw_eq {run : Run x (depth + 1)} {E : Emission run decl r (some e)} {child : Run x depth}
    (hc : E.Deploys child) {v : Json} (h : (takeTemplate decl.body).2 = some v) :
    child.deployment.template.raw = v := by
  obtain ⟨w, ha, ht⟩ := hc.template
  rw [h] at ha
  cases ha
  exact (Template.ofJson_reads ht).1

theorem exists_deploys {run : Run x (depth + 1)} (E : Emission run decl r (some e)) :
    ∃ child : Run x depth, E.Deploys child := by
  rcases E.completed with ⟨hnone, -⟩ | ⟨e', he, -, -, template, t, ha, ht, log, log', hx⟩
  · cases hnone
  · cases he
    obtain ⟨child, rfl, hof⟩ := exists_isOf ht hx
    exact ⟨child, ⟨template, ha, ht⟩, hof⟩

end Emission

/-- Whether a run is that of the root deployment of a template, and gives what the template expands to. -/
structure Run.IsRoot (run : Run x x.options.maxDepth) (t : Template) (values : Entries Json) (e : ExpandedDeployment) :
    Prop where
  created : outcome (Deployment.create t x.options (.root x.options t.scopeLevel) values) {} =
    (.ok run.deployment, run.scope)
  gives : ∃ outputs p, outcome (evalOutputs run.deployment [] t.outputs) run.final = (.ok outputs, p) ∧
    e = p.result run.deployment.identity.name outputs

theorem exists_isRoot {v : Json} {t : Template} {log : List Diagnostic} (ht : Template.ofJson v = .ok t)
    (h : x.expand t values = (.ok e, log)) : ∃ run : Run x x.options.maxDepth, run.IsRoot t values e := by
  obtain ⟨run, hc, outputs, p, ho, rfl⟩ := expandAt_evaluated ht h
  exact ⟨run, hc, outputs, p, ho, congrArg (p.result · outputs) (congrArg _ (create_ok hc).2.1.symm)⟩

namespace Run.IsRoot

variable {run : Run x x.options.maxDepth} {t : Template} (h : run.IsRoot t values e)
include h

theorem template : run.deployment.template = t := (create_ok h.created).1

theorem isOf : run.IsOf (.root x.options t.scopeLevel) values e := by
  obtain ⟨outputs, p, ho, he⟩ := h.gives
  obtain ⟨rfl, hidentity, -⟩ := create_ok h.created
  exact ⟨⟨[], h.created⟩, outputs, p, ho, by rw [he, hidentity]⟩

theorem toGives : run.Gives e := by
  obtain ⟨outputs, p, ho, rfl⟩ := h.gives
  exact run.gives_result ho

end Run.IsRoot

/-- The declaration that the resource at a position stems from, with what is nested in the resource: one of the
deployment itself, or one of the deployment nested in a resource that it emits, whose resources follow that one. -/
inductive Origin (x : Expander) : {depth : Nat} → Run x depth → Nat → {leafDepth : Nat} → Run x leafDepth →
    ResourceDeclaration → ResourceValue → Option ExpandedDeployment → Prop where
  | own {depth n : Nat} {run : Run x depth} {decl : ResourceDeclaration} {r : ResourceValue}
      {inner : Option ExpandedDeployment} (hb : run.history.Begins n decl (.emitted r inner)) :
      Origin x run n run decl r inner
  | nested {depth leafDepth n k : Nat} {run : Run x (depth + 1)} {child : Run x depth} {leaf : Run x leafDepth}
      {decl leafDecl : ResourceDeclaration} {r leafValue : ResourceValue} {e : ExpandedDeployment}
      {inner : Option ExpandedDeployment} (hb : run.history.Begins n decl (.emitted r (some e)))
      (E : Emission run decl r (some e)) (hc : E.Deploys child) (h : Origin x child k leaf leafDecl leafValue inner) :
      Origin x run (n + 1 + k) leaf leafDecl leafValue inner

theorem Run.IsOf.exists_origin {run : Run x depth} (h : run.IsOf identity values e) {i : Nat}
    (hi : e.resources[i]? = some r) : ∃ (leafDepth : Nat) (leaf : Run x leafDepth) (decl : ResourceDeclaration)
      (inner : Option ExpandedDeployment), Origin x run i leaf decl r inner := by
  induction depth generalizing identity values e i with
  | zero =>
    rcases h.own_or_inner hi with ⟨decl, inner, hb⟩ | ⟨n, k, decl, r', inner, rfl, hb, -⟩
    · exact ⟨0, run, decl, inner, .own hb⟩
    · -- nothing is nested at the greatest depth
      obtain ⟨E⟩ := Run.exists_emission hb
      rcases E.completed with ⟨hnone, -⟩ | ⟨_, -, -, -, _, _, -, -, _, _, hx⟩
      · cases hnone
      · cases hx
  | succ depth ih =>
    rcases h.own_or_inner hi with ⟨decl, inner, hb⟩ | ⟨n, k, decl, r', inner, rfl, hb, hk⟩
    · exact ⟨_, run, decl, inner, .own hb⟩
    · obtain ⟨E⟩ := Run.exists_emission hb
      obtain ⟨child, hc⟩ := E.exists_deploys
      obtain ⟨leafDepth, leaf, leafDecl, leafInner, ho⟩ := ih hc.isOf hk
      exact ⟨leafDepth, leaf, leafDecl, leafInner, .nested hb E hc ho⟩

namespace Origin

variable {run : Run x depth} {leafDepth i : Nat} {leaf : Run x leafDepth} (ho : Origin x run i leaf decl r inner)
include ho

/-- A resource is emitted by the run of the deployment that declares it. -/
theorem begins (hof : run.IsOf identity values e) : ∃ leafIdentity leafValues given n,
    leaf.IsOf leafIdentity leafValues given ∧ leaf.history.Begins n decl (.emitted r inner) := by
  induction ho generalizing identity values e with
  | own hb => exact ⟨identity, values, e, _, hof, hb⟩
  | nested _ E hc _ ih => exact ih hc.isOf

end Origin

def nesting (template : Json) : Json := .obj
  [("resources", .arr
    [.obj [("type", .str ResourceId.deploymentType), ("name", .str "inner"),
      ("properties", .obj [("template", template)])]])]

end ResourceTemplate.Expander
