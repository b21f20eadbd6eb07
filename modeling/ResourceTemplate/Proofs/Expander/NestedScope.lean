import ResourceTemplate.Proofs.Deployment.ResourceIds
import ResourceTemplate.Proofs.Expander.Forwarding
import ResourceTemplate.Proofs.Expander.Identities

namespace ResourceTemplate

/-- The string that a body has under a name, in any spelling of the name. -/
def Entries.text? (body : Entries Json) (name : String) : Option String := (body.getNamed? name).bind Json.str?

theorem Entries.text?_insert_of_ne {key name : String} (h : Name.same key name = false) (body : Entries Json) (v : Json) :
    (body.insert key v).text? name = body.text? name := by
  unfold text?
  rw [getNamed?_insert_of_ne h]

section
variable {d : Deployment} {l : Ledger} {pointer key : String} {members body : Entries Json} {s t : Scope}
  (h : outcome (d.evalObject l pointer members) s = (.ok body, t))
include h

/-- A plain member that is a literal is evaluated to the text that it stands for. -/
theorem Deployment.text?_evalObject {w text : String}
    (hv : Value.plainAt? [.key key] (.obj members) = some (.str w)) (hw : TemplateString.parse w = .ok (.literal text)) :
    body.text? key = some text := by
  obtain ⟨u, u', z, hz, hat⟩ := Value.at?_of_plainAt? hv (outcome_bind_eq_ok.mpr ⟨body, t, h, rfl⟩)
  have hliteral := (Value.outcome_onHost_literal (d.host l) _ u hw).symm.trans hz
  cases hliteral
  obtain ⟨_, v, he, hget, hv⟩ := Json.at?_key.mp hat
  cases he
  cases hv
  unfold Entries.text?
  rw [Entries.getNamed?_of_get? hget]
  rfl

theorem Deployment.text?_evalObject_eq_none (hplain : ∀ e ∈ members, Value.IsPlain e ∧ Name.same e.1 key = false) :
    body.text? key = none := by
  have hno : body.getNamed? key = none := by
    refine Entries.getNamed?_eq_none fun other hother => ?_
    obtain ⟨e, he, rfl⟩ := List.mem_map.mp hother
    obtain ⟨e', he', hkey⟩ := Value.mem_keys_evalMembers (fun e he => (hplain e he).1) h he
    exact hkey ▸ (hplain e' he').2
  unfold Entries.text?
  rw [hno]
  rfl

end

namespace DeploymentIdentity

variable {d : DeploymentIdentity} {type name : String} {scope group subscription : Option String} {r : ResourceIdentity}

theorem resourceIdentity_eq_ok : d.resourceIdentity type name scope group subscription = .ok r ↔
    r.type = type ∧ r.name = name ∧ r.scope = d.resourceScope scope group subscription ∧
      ResourceId.under r.scope r.type (ResourceId.splitName r.name) = .ok r.id := by
  obtain ⟨id, rname, rtype, rscope⟩ := r
  unfold resourceIdentity
  dsimp only
  constructor
  · intro h
    split at h
    · rename_i hu
      cases h
      exact ⟨rfl, rfl, rfl, hu⟩
    · cases h
  · rintro ⟨rfl, rfl, rfl, hu⟩
    rw [hu]

/-- What names no scope, resource group or subscription lies in the scope of the deployment. -/
theorem resourceScope_none (d : DeploymentIdentity) : d.resourceScope none none none = d.scopeId := by
  unfold resourceScope scopeWith scopeId
  cases d.scopeLevel <;> rfl

end DeploymentIdentity

/-- Whether a resource lies in a scope: the scope is recorded for it, and its id is built below the scope. -/
structure ResourceIdentity.LiesIn (r : ResourceIdentity) (scope : String) : Prop where
  recorded : r.scope = scope
  built : ResourceId.under scope r.type (ResourceId.splitName r.name) = .ok r.id
  below : (ResourceId.trimSlashes scope ++ "/").toList <+: r.id.toList

theorem ResourceIdentity.liesIn_of_under {r : ResourceIdentity}
    (h : ResourceId.under r.scope r.type (ResourceId.splitName r.name) = .ok r.id) : r.LiesIn r.scope where
  recorded := rfl
  built := h
  below := by
    obtain ⟨segments, -, hid⟩ := ResourceId.under_ok h
    refine ⟨Text.joined '/' segments, ?_⟩
    rw [hid, String.toList_append, List.append_assoc]
    rfl

namespace Deployment

variable {d : Deployment} {decl : ResourceDeclaration} {body : Entries Json} {r : ResourceIdentity}

/-- The resource group or subscription that a declaration of a type names in place of that of the deployment. -/
def override? (decl : ResourceDeclaration) (type : String) (body : Entries Json) (key : String) : Option String :=
  if mayOverride decl type then body.text? key else none

theorem identityOf_ok (h : d.identityOf decl body = .ok r) :
    body.text? "type" = some r.type ∧ r.scope = d.identity.resourceScope (body.text? "scope") (override? decl r.type body "resourceGroup")
        (override? decl r.type body "subscriptionId") ∧
      ResourceId.under r.scope r.type (ResourceId.splitName r.name) = .ok r.id := by
  obtain ⟨type, htype, h⟩ := bind_eq_ok.mp h
  obtain ⟨name, -, h⟩ := bind_eq_ok.mp h
  obtain ⟨rfl, -, hscope, hu⟩ := DeploymentIdentity.resourceIdentity_eq_ok.mp (mapError_eq_ok.mp h)
  refine ⟨?_, hscope, hu⟩
  unfold identityText at htype
  split at htype
  · rename_i w hw
    cases htype
    cases hget : body.getNamed? "type" with
    | none =>
      rw [hget] at hw
      cases hw
    | some v =>
      rw [hget] at hw
      obtain rfl : v = .str r.type := hw
      unfold Entries.text?
      rw [hget]
      rfl
  · cases htype

/-- Whether a declaration that is evaluated to a body stays in the scope of its deployment: it has no scope of its own
and names no other resource group or subscription. -/
structure Stays (decl : ResourceDeclaration) (type : String) (body : Entries Json) : Prop where
  scope : body.text? "scope" = none
  resourceGroup : override? decl type body "resourceGroup" = none
  subscriptionId : override? decl type body "subscriptionId" = none

theorem Stays.liesIn (hs : Stays decl r.type body) (h : d.identityOf decl body = .ok r) : r.LiesIn d.identity.scopeId := by
  obtain ⟨-, hscope, hu⟩ := identityOf_ok h
  rw [hs.scope, hs.resourceGroup, hs.subscriptionId, DeploymentIdentity.resourceScope_none] at hscope
  exact hscope ▸ ResourceIdentity.liesIn_of_under hu

end Deployment

theorem History.Begins.committed {h : History} {n : Nat} {decl : ResourceDeclaration} {inst : Instance}
    (hb : h.Begins n decl inst) :
    ∃ instances, .committed decl instances ∈ h ∧ inst ∈ instances := by
  obtain ⟨before, after, first, last, rfl, -⟩ := hb
  exact ⟨first ++ inst :: last, by simp, by simp⟩

namespace Expander

variable {x : Expander} {depth : Nat} {decl : ResourceDeclaration} {inst : Instance} {r : ResourceValue}
  {inner : Option ExpandedDeployment}

theorem ownMembers_eq (decl : ResourceDeclaration) : decl.ownMembers = evaluatedBody decl := by
  unfold ResourceDeclaration.ownMembers evaluatedBody
  split <;> rfl

/-- An instance that is not skipped is expanded once its condition was evaluated. -/
theorem expandInstance_active {nested : Nested} {d : Deployment} {l : Ledger} {dependsOn : List String}
    {index : Option Nat} {s u : Scope}
    (h : outcome (x.expandInstance nested d l dependsOn decl index) s = (.ok inst, u)) (hne : ∀ id, inst ≠ .skipped id) :
    ∃ t, d.LeadsTo s t ∧ outcome (x.expandActive nested d l dependsOn decl index) t = (.ok inst, u) := by
  unfold expandInstance at h
  obtain ⟨b, t, hb, h⟩ := outcome_bind_eq_ok.mp h
  cases b with
  | true =>
    have ht := obeys_holds (d.steady_leadsTo.evalSteady.evalObeys l) (decl.pointer ++ "/condition") decl.condition s
    rw [hb] at ht
    exact ⟨t, ht, h⟩
  | false =>
    obtain ⟨preview, _, -, h⟩ := outcome_bind_eq_ok.mp h
    cases h
    exact absurd rfl (hne _)

/-- How a run comes to have a resource, emitted or existing: it commits an instance of a declaration that tells the
identity of the body to which the members of the declaration are evaluated. -/
structure Run.Has (run : Run x depth) (decl : ResourceDeclaration) (inst : Instance) (body : Entries Json)
    (r : ResourceIdentity) : Prop where
  committed : ∃ instances, .committed decl instances ∈ run.history ∧ inst ∈ instances
  evaluated : ∃ before p s t, Reached x (x.nestedAt depth) run.deployment run.plan run.start before p ∧
    run.deployment.LeadsTo p.scope s ∧
    outcome (run.deployment.evalObject p.ledger decl.pointer decl.ownMembers) s = (.ok body, t)
  identified : run.deployment.identityOf decl body = .ok r
  tells : inst.Tells r

/-- Every instance that a run commits and does not skip is a resource that it has. -/
theorem Run.exists_has {run : Run x depth} {instances : List Instance} (hc : .committed decl instances ∈ run.history)
    (hi : inst ∈ instances) (hne : ∀ id, inst ≠ .skipped id) : ∃ body r, run.Has decl inst body r := by
  obtain ⟨before, after, hh⟩ := List.append_of_mem hc
  obtain ⟨p, _, hp, -, -, hturn⟩ := run.reached.split hh
  cases hturn with
  | commits instances s _ _ ha _ =>
    have hl := run.deployment.steady_leadsTo.evalSteady
    obtain ⟨i, hget⟩ := List.mem_iff_getElem?.mp hi
    obtain ⟨n, t, u, v, -, -, hu, hinst⟩ := attempt_at hl ha hget
    obtain ⟨_, hinst⟩ := ResourceDeclaration.exists_of_inLoop hinst
    obtain ⟨w, hw, hactive⟩ := expandInstance_active hinst hne
    obtain ⟨body, w', r, hbody, hid, htells⟩ := expandActive_tells hactive
    rw [← ownMembers_eq] at hbody
    have hloop := Deployment.LeadsTo.loops (d := run.deployment) u (decl.loopsAt i ++ u.loops)
    exact ⟨body, r, ⟨instances, hc, hi⟩, ⟨before, p, w, w', hp, hl.trans _ _ _ hu (hl.trans _ _ _ hloop hw), hbody⟩,
      hid, htells⟩

namespace Emission

/-- The identity of an emitted resource is that of the body to which its declaration is evaluated. -/
theorem identityOf {run : Run x depth} (E : Emission run decl r inner) :
    run.deployment.identityOf decl E.body = .ok r.identity := by
  have hb := E.evaluates
  rw [ownMembers_eq] at hb
  have hraw : (if isDeployment decl then takeTemplate decl.body else (decl.body, none)).1 = evaluatedBody decl :=
    ownMembers_eq decl
  have hx := E.exposes
  unfold exposed at hx
  dsimp only at hx
  rw [hraw] at hx
  obtain ⟨body, t, hbody, hx⟩ := outcome_bind_eq_ok.mp hx
  rw [hb] at hbody
  cases hbody
  obtain ⟨identity, u, hi, hx⟩ := outcome_bind_eq_ok.mp hx
  have hid : identity = r.identity := by
    split at hx
    all_goals
      obtain ⟨_, _, -, hx⟩ := outcome_bind_eq_ok.mp hx
      exact congrArg Prod.fst (Except.ok.inj (Prod.mk.inj hx).1)
  rw [ScopeM.outcome_lift] at hi
  exact hid ▸ congrArg Prod.fst hi

theorem type_eq {run : Run x depth} (E : Emission run decl r inner) {w type : String}
    (h : Value.plainAt? [.key "type"] (.obj decl.ownMembers) = some (.str w))
    (hw : TemplateString.parse w = .ok (.literal type)) : r.identity.type = type := by
  obtain ⟨htype, -⟩ := Deployment.identityOf_ok E.identityOf
  exact Option.some.inj (htype.symm.trans (Deployment.text?_evalObject E.evaluates h hw))

/-- An inline template that is put back changes no other member. -/
theorem text?_templated {run : Run x depth} (E : Emission run decl r inner) (name : String)
    (h : Name.same "properties" name = false) : Entries.text? E.templated name = Entries.text? E.body name := by
  unfold templated withInline
  split
  · exact Entries.text?_insert_of_ne h _ _
  · rfl

namespace Deploys

variable {e : ExpandedDeployment} {run : Run x (depth + 1)} {E : Emission run decl r (some e)} {child : Run x depth}
  (h : E.Deploys child)
include h

theorem identity : child.deployment.identity = nestedIdentity run.deployment.identity r.identity.name E.templated
    child.deployment.template.scopeLevel := by
  obtain ⟨log, hc⟩ := h.isOf.created
  exact (create_ok hc).2.1

/-- A template of a resource group is deployed where its deployment resource lies. -/
theorem scopeId (htype : Name.same r.identity.type ResourceId.deploymentType = true)
    (hscope : Entries.text? E.body "scope" = none) (hlevel : child.deployment.template.scopeLevel = .resourceGroup)
    (hgroup : run.deployment.identity.scopeLevel = .resourceGroup ∨
      (Entries.text? E.body "resourceGroup").isSome = true) :
    child.deployment.identity.scopeId = r.identity.scope := by
  have hmay : Deployment.mayOverride decl r.identity.type = true := by
    simp [Deployment.mayOverride, htype]
  obtain ⟨-, hr, -⟩ := Deployment.identityOf_ok E.identityOf
  simp only [Deployment.override?, hmay, if_true, hscope] at hr
  have hchild : child.deployment.identity.scopeId = ResourceId.resourceGroupScope
      ((Entries.text? E.body "subscriptionId").getD run.deployment.identity.subscriptionId)
      ((Entries.text? E.body "resourceGroup").getD run.deployment.identity.resourceGroup) := by
    rw [← E.text?_templated "subscriptionId" (by decide),
      ← E.text?_templated "resourceGroup" (by decide), h.identity, hlevel]
    rfl
  rw [hr, hchild]
  unfold DeploymentIdentity.resourceScope DeploymentIdentity.scopeWith
  cases hg : Entries.text? E.body "resourceGroup" with
  | some group => rfl
  | none =>
    have hparent : run.deployment.identity.scopeLevel = .resourceGroup := hgroup.resolve_right (by simp [hg])
    rw [hparent]
    rfl

/-- A deployment resource without a scope of its own records the scope that its template is deployed into, where that is
a resource group: whatever resource group and subscription it names, in whatever spelling, or holds in place of a name.
So all that the nested deployment has and that names no other place lies in the scope of its deployment resource. -/
theorem keeps_scope (htype : Name.same r.identity.type ResourceId.deploymentType = true)
    (hscope : Entries.text? E.body "scope" = none) (hlevel : child.deployment.template.scopeLevel = .resourceGroup)
    (hgroup : run.deployment.identity.scopeLevel = .resourceGroup ∨
      (Entries.text? E.body "resourceGroup").isSome = true) :
    child.deployment.identity.scopeId = r.identity.scope ∧
      ∀ decl' inst body r', child.Has decl' inst body r' → Deployment.Stays decl' r'.type body →
        r'.LiesIn r.identity.scope := by
  have hsame := h.scopeId htype hscope hlevel hgroup
  refine ⟨hsame, fun decl' inst body r' hhas hstays => ?_⟩
  rw [← hsame]
  exact hstays.liesIn hhas.identified

end Deploys
end Emission

/-- A deployment into another resource group, which is named in capital letters. The subscription that is given is no
string. -/
def redirected : Json := .obj
  [("resources", .arr [.obj [("type", .str "Microsoft.Resources/deployments"), ("apiVersion", .str "1"),
     ("name", .str "inner"), ("RESOURCEGROUP", .str "h"), ("SubscriptionId", .int 7),
     ("properties", .obj [("template", .obj [("resources", .arr
       [.obj [("type", .str "A/b"), ("apiVersion", .str "1"), ("name", .str "x")]])])])]])]

def Unscoped (decl : ResourceDeclaration) : Prop :=
  ∀ e ∈ decl.ownMembers, Value.IsPlain e ∧ Name.same e.1 "scope" = false

instance (decl : ResourceDeclaration) : Decidable (Unscoped decl) := inferInstanceAs (Decidable (∀ e ∈ _, _))

/-- Whether all declarations of a template are plain deployments of templates of resource groups, whose declarations
are plain. -/
def redirects (t : Template) : Bool :=
  t.resources.all fun decl => isDeployment decl && decide (Unscoped decl) &&
    (Value.plainAt? [.key "type"] (.obj decl.ownMembers)).bind Json.str? == some ResourceId.deploymentType &&
    (takeTemplate decl.body).2.any fun template => (Template.ofJson template).toOption.any fun t' =>
      t'.scopeLevel == .resourceGroup && t'.resources.all fun decl' => !decl'.existing && decide (Unscoped decl')

theorem Run.Has.stays {run : Run x depth} {r : ResourceIdentity} (h : run.Has decl inst body r) (hunscoped : Unscoped decl)
    (hmay : Deployment.mayOverride decl r.type = false) : Deployment.Stays decl r.type body := by
  obtain ⟨_, _, _, _, -, -, hbody⟩ := h.evaluated
  have hno (name : String) : Deployment.override? decl r.type body name = none := by
    rw [Deployment.override?, hmay]
    rfl
  exact ⟨Deployment.text?_evalObject_eq_none hbody hunscoped, hno _, hno _⟩

/-- All that a template of that kind emits of its own is deployments. -/
theorem Emission.type_of_redirects {run : Run x depth} (E : Emission run decl r inner)
    (hr : redirects run.deployment.template = true) (hdecl : decl ∈ run.deployment.template.resources) :
    r.identity.type = ResourceId.deploymentType := by
  simp only [redirects, List.all_eq_true, Bool.and_eq_true, beq_iff_eq, Json.bind_str?_eq_some] at hr
  obtain ⟨⟨-, htype⟩, -⟩ := hr decl hdecl
  exact E.type_eq htype rfl

theorem Emission.Deploys.of_redirects {e : ExpandedDeployment} {run : Run x (depth + 1)}
    {E : Emission run decl r (some e)} {child : Run x depth} (h : E.Deploys child)
    (hr : redirects run.deployment.template = true) (hdecl : decl ∈ run.deployment.template.resources) :
    Entries.text? E.body "scope" = none ∧ child.deployment.template.scopeLevel = .resourceGroup ∧
      ∀ decl' ∈ child.deployment.template.resources, decl'.existing = false ∧ Unscoped decl' := by
  simp only [redirects, List.all_eq_true, Bool.and_eq_true, decide_eq_true_eq] at hr
  obtain ⟨⟨⟨-, hunscoped⟩, -⟩, htemplate⟩ := hr decl hdecl
  obtain ⟨template, htake, htemplate⟩ := (Option.any_eq_true _ _).mp htemplate
  obtain ⟨t, ht, hchild⟩ := (Option.any_eq_true _ _).mp htemplate
  -- the template that is deployed is the one that stands in the declaration
  obtain ⟨v, hv, hread⟩ := h.template
  rw [htake] at hv
  cases hv
  cases hread.symm.trans (toOption_eq_some.mp ht)
  simp only [Bool.and_eq_true, beq_iff_eq, List.all_eq_true, decide_eq_true_eq, Bool.not_eq_true'] at hchild
  exact ⟨Deployment.text?_evalObject_eq_none E.evaluates hunscoped, hchild⟩

/-- The resource that is deployed lies in the scope of its deployment resource, which is that of the other group. -/
theorem Emission.Deploys.keeps_scope_redirected :
    ∃ t e log, Template.ofJson redirected = .ok t ∧
      small.expandAt 1 t (.root small.options t.scopeLevel) [] [] = (.ok e, log) ∧
      ∃ (run : Run small 1) (decl : ResourceDeclaration) (r : ResourceValue) (inner : ExpandedDeployment)
        (E : Emission run decl r (some inner)) (child : Run small 0), E.Deploys child ∧
        Name.same r.identity.type ResourceId.deploymentType = true ∧ Entries.text? E.body "scope" = none ∧
        child.deployment.template.scopeLevel = .resourceGroup ∧ run.deployment.identity.scopeLevel = .resourceGroup ∧
        child.deployment.identity.scopeId = r.identity.scope ∧ r.identity.scope = "/subscriptions/s/resourceGroups/h" ∧
        ∃ decl' inst body r', child.Has decl' inst body r' ∧ Deployment.Stays decl' r'.type body ∧ r'.type = "A/b" ∧
          r'.LiesIn r.identity.scope := by
  have hc : (Template.ofJson redirected).toOption.any fun t => t.scopeLevel == .resourceGroup && redirects t &&
      (small.expandAt 1 t (.root small.options t.scopeLevel) [] []).1.toOption.any fun e =>
        (e.resources.map fun r => (r.identity.type, r.identity.scope)) ==
          [(ResourceId.deploymentType, "/subscriptions/s/resourceGroups/h"),
            ("A/b", "/subscriptions/s/resourceGroups/h")] := by
    decide +kernel
  obtain ⟨t, ht, hc⟩ := (Option.any_eq_true _ _).mp hc
  simp only [Bool.and_eq_true, beq_iff_eq] at hc
  obtain ⟨⟨hroot, hredirects⟩, hc⟩ := hc
  obtain ⟨e, he, hc⟩ := (Option.any_eq_true _ _).mp hc
  rw [toOption_eq_some] at ht he
  have he : small.expandAt 1 t (.root small.options t.scopeLevel) [] [] = (.ok e, _) := Prod.ext he rfl
  obtain ⟨r₀, rest, hres, h₀, hrest⟩ := List.map_eq_cons_iff.mp (beq_iff_eq.mp hc)
  obtain ⟨r₁, _, rfl, h₁, -⟩ := List.map_eq_cons_iff.mp hrest
  obtain ⟨run, rfl, hof⟩ := exists_isOf ht he
  have htype {decl inner} {r : ResourceValue} (E : Emission run decl r inner) {i : Nat}
      (hb : run.history.Begins i decl (.emitted r inner)) : r.identity.type = ResourceId.deploymentType :=
    E.type_of_redirects hredirects (run.demands hb).declared
  rcases hof.own_or_inner (i := 1) (r := r₁) (by rw [hres]; rfl) with ⟨decl, inner, hb⟩ | ⟨n, k, decl, r, inner, hi, hb, hk⟩
  · -- a resource of the template itself is a deployment
    obtain ⟨E⟩ := run.exists_emission hb
    exact absurd ((htype E hb).symm.trans (Prod.mk.inj h₁).1) (by decide)
  · obtain ⟨rfl, rfl⟩ : n = 0 ∧ k = 0 := by omega
    have hr : r₀ = r := by
      have hget := hb.getElem? (k := 0) rfl
      rw [← run.recorded.emitted, ← hof.resources, hres] at hget
      exact Option.some.inj hget
    subst hr
    obtain ⟨E⟩ := run.exists_emission hb
    obtain ⟨child, hchild⟩ := E.exists_deploys
    obtain ⟨hscope, hlevel, hplain⟩ := hchild.of_redirects hredirects (run.demands hb).declared
    have hresource : Name.same r₀.identity.type ResourceId.deploymentType = true := htype E hb ▸ Name.same_self _
    have hparent : run.deployment.identity.scopeLevel = .resourceGroup := by
      obtain ⟨log, hcreated⟩ := hof.created
      rw [(create_ok hcreated).2.1]
      exact hroot
    obtain ⟨hsame, hlies⟩ := hchild.keeps_scope hresource hscope hlevel (.inl hparent)
    rcases hchild.isOf.own_or_inner hk with ⟨decl', inner', hb'⟩ | ⟨n, k, _, _, _, hi, -⟩
    · obtain ⟨instances, hcommitted, hinstance⟩ := hb'.committed
      obtain ⟨body, r', hhas⟩ := Run.exists_has hcommitted hinstance fun _ h => by cases h
      obtain ⟨hexisting, hunscoped⟩ := hplain decl' (child.demands hb').declared
      obtain rfl : r₁.identity = r' := hhas.tells
      have htype' : r₁.identity.type = "A/b" := (Prod.mk.inj h₁).1
      have hmay : Deployment.mayOverride decl' r₁.identity.type = false := by
        rw [htype', Deployment.mayOverride, hexisting]
        decide
      have hstays := hhas.stays hunscoped hmay
      exact ⟨_, e, _, ht, he, run, decl, r₀, inner, E, child, hchild, hresource, hscope, hlevel, hparent, hsame,
        (Prod.mk.inj h₀).2, decl', _, body, _, hhas, hstays, htype', hlies _ _ _ _ hhas hstays⟩
    · omega

end Expander
end ResourceTemplate
