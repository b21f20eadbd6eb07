import ResourceTemplate.Proofs.Deployment.Previews
import ResourceTemplate.Proofs.Expander.Changes
import ResourceTemplate.Proofs.Expander.Preparation
import ResourceTemplate.Proofs.Expander.SinglePass

namespace ResourceTemplate

/-- Whether an instance tells an identity: its resource has it, or its id is given though it is skipped. -/
def Instance.Tells : Instance → ResourceIdentity → Prop
  | .emitted resource _, r => resource.identity = r
  | .existing resource, r => resource.identity = r
  | .skipped id, r => id = some r.id

namespace Expander

variable {x : Expander} {nested : Nested} {d : Deployment} {plan : Plan} {p₀ : Progress} {l : Ledger}
  {decl : ResourceDeclaration} {dependsOn : List String} {index : Option Nat} {inst : Instance} {s t : Scope}

theorem takeTemplate_eq (body : Entries Json) : (takeTemplate body).1 = body ∨
    body.has "properties" = true ∧ ∃ v, (takeTemplate body).1 = body.insert "properties" v := by
  unfold takeTemplate
  dsimp only
  split
  · exact .inl rfl
  · rename_i key hkey
    refine .inr ⟨?_, _, rfl⟩
    by_contra hno
    -- without properties there is no template
    rw [propertiesOf, Entries.get?_eq_none_iff.mpr (by simpa using hno)] at hkey
    cases hkey

theorem keys_takeTemplate (body : Entries Json) : Entries.keys (takeTemplate body).1 = body.keys := by
  rcases takeTemplate_eq body with hsame | ⟨hhas, v, hinsert⟩
  · rw [hsame]
  · rw [hinsert, Entries.keys_insert_of_has hhas]

theorem getNamed?_takeTemplate {key : String} (h : Name.same "properties" key = false) (body : Entries Json) :
    Entries.getNamed? (takeTemplate body).1 key = body.getNamed? key := by
  rcases takeTemplate_eq body with hsame | ⟨-, v, hinsert⟩
  · rw [hsame]
  · rw [hinsert, Entries.getNamed?_insert_of_ne h]

def evaluatedBody (decl : ResourceDeclaration) : Entries Json :=
  if isDeployment decl then (takeTemplate decl.body).1 else decl.body

theorem keys_evaluatedBody (decl : ResourceDeclaration) : (evaluatedBody decl).keys = decl.body.keys := by
  unfold evaluatedBody
  split
  · exact keys_takeTemplate _
  · rfl

theorem getNamed?_evaluatedBody {key : String} (h : key ∈ Deployment.identityKeys) (decl : ResourceDeclaration) :
    (evaluatedBody decl).getNamed? key = Entries.getNamed? decl.body key := by
  have hall : ∀ key ∈ Deployment.identityKeys, Name.same "properties" key = false := by decide
  unfold evaluatedBody
  split
  · exact getNamed?_takeTemplate (hall key h) _
  · rfl

/-- An active instance tells the identity that is read off its evaluated body. -/
theorem expandActive_tells
    (h : outcome (x.expandActive nested d l dependsOn decl index) s = (.ok inst, t)) :
    ∃ body u r, outcome (d.evalObject l decl.pointer (evaluatedBody decl)) s = (.ok body, u) ∧
      d.identityOf decl body = .ok r ∧ inst.Tells r := by
  have hraw : (if isDeployment decl then takeTemplate decl.body else (decl.body, none)).1 = evaluatedBody decl := by
    unfold evaluatedBody
    split <;> rfl
  unfold expandActive at h
  dsimp only at h
  rw [hraw] at h
  obtain ⟨body, u, hbody, h⟩ := outcome_bind_eq_ok.mp h
  obtain ⟨r, v, hr, h⟩ := outcome_bind_eq_ok.mp h
  rw [ScopeM.outcome_lift] at hr
  refine ⟨body, u, r, hbody, congrArg Prod.fst hr, ?_⟩
  split at h
  · cases h
    rfl
  · split at h
    all_goals
      obtain ⟨full, w, -, h⟩ := outcome_bind_eq_ok.mp h
      obtain ⟨_, _, hg, h⟩ := outcome_bind_eq_ok.mp h
      cases hg
      cases h
      rfl

/-- Where an instance is expanded in its loop and nothing is in progress, it tells the identity that its members are
evaluated to on their own. -/
theorem expandInstance_tells {loops : List (String × Int)} (hn : d.template.DistinctNames) (hs : d.Ready loops s)
    (hplain : decl.PlainKeys) (hu : Template.Unsteered decl)
    (hneeds : ∀ key ∈ Deployment.identityKeys, ∀ v, Entries.getNamed? decl.body key = some v →
      d.NeedsNone loops (decl.pointer ++ "/" ++ key) v)
    (h : outcome (x.expandInstance nested d l dependsOn decl index) s = (.ok inst, t)) (hne : inst ≠ .skipped none) :
    ∃ body r, d.HasOwn loops decl.pointer decl.body body ∧ d.identityOf decl body = .ok r ∧ inst.Tells r := by
  have hsteady := Deployment.evalSteady_continues hn
  unfold expandInstance at h
  obtain ⟨b, u, hb, h⟩ := outcome_bind_eq_ok.mp h
  have hready : d.Ready loops u := by
    have hstep : d.Continues s (outcome (holds d l (decl.pointer ++ "/condition") decl.condition) s).2 :=
      obeys_holds (hsteady.evalObeys l) _ _ s
    rw [hb] at hstep
    exact hs.continues hstep
  cases b with
  | true =>
    obtain ⟨body, v, r, hbody, hr, htells⟩ := expandActive_tells h
    have hkeys := keys_evaluatedBody decl
    have hown : d.HasOwn loops decl.pointer (evaluatedBody decl) body := by
      refine hready.hasOwn hn ?_ (hkeys ▸ hplain.nodup) ?_ hbody
      · intro key hk
        exact hplain.hasLiteralKeys hu key (hkeys ▸ hk)
      · intro key hk v hv
        exact hneeds key hk v (getNamed?_evaluatedBody hk decl ▸ hv)
    exact ⟨body, r, fun key hk => getNamed?_evaluatedBody hk decl ▸ hown key hk, hr, htells⟩
  | false =>
    obtain ⟨r, v, hr, h⟩ := outcome_bind_eq_ok.mp h
    cases h
    cases r with
    | none => exact absurd rfl hne
    | some r =>
      obtain ⟨body, hown, hid⟩ := hready.exists_hasOwn hn hneeds hr
      exact ⟨body, r, hown, hid, rfl⟩

section
variable {s₀ : Scope} (hn : d.template.DistinctNames) (hs : s₀.Fresh)
include hn hs

/-- Where the identities of a declaration are collected, nothing is in progress. -/
theorem Collects.ready {before : List ResourceDeclaration} {m : Progress} (h : Collects d s₀ before m) :
    d.Ready [] m.scope := by
  obtain ⟨p, hp, hm⟩ := h
  have hlearns := Discipline.Obeys.forM (learnIdentities_steady (Deployment.evalSteady_continues hn)) before p
  rw [hm] at hlearns
  have hscope : p.scope = s₀ := declareSymbols_scope hp
  exact (hscope ▸ Deployment.Ready.of_fresh hs).continues hlearns

variable (h₀ : outcome (prepare d) (.start s₀ d.template.resources) = (.ok plan, p₀))
include h₀

/-- Where a declaration has its turn, nothing is in progress. -/
theorem Reached.ready {h : History} {p : Progress} (hr : Reached x nested d plan p₀ h p) : d.Ready [] p.scope := by
  have hsteady := Deployment.evalSteady_continues hn
  have hprepare := prepare_steady hsteady (.start s₀ d.template.resources)
  rw [h₀] at hprepare
  have hreach : d.Continues p₀.scope p.scope := hr.steady hsteady fun s diagnostics =>
    ⟨⟨rfl, rfl, .refl _, .refl _⟩, fun hc => hc⟩
  exact ((Deployment.Ready.of_fresh hs).continues hprepare).continues hreach

/-- An instance that a declaration was committed with tells the identity that its members are evaluated to on their
own. -/
theorem Reached.committed_tells {v : Json} (ht : Template.ofJson v = .ok d.template) {h : History} {p : Progress}
    (hr : Reached x nested d plan p₀ h p) {instances : List Instance} {i : Nat} (hplain : decl.PlainKeys)
    (hneeds : d.IdentityNeedsNone decl i) (hcommitted : .committed decl instances ∈ h)
    (hi : instances[i]? = some inst) (hne : inst ≠ .skipped none) :
    decl ∈ d.template.resources ∧ ∃ l s n t body r, d.Ready [] s ∧
      outcome (d.instanceCount l decl) s = (.ok n, t) ∧ i < n ∧
      d.HasOwn (decl.loopsAt i) decl.pointer decl.body body ∧ d.identityOf decl body = .ok r ∧ inst.Tells r := by
  obtain ⟨first, last, hh⟩ := List.append_of_mem hcommitted
  obtain ⟨q, _, hq, hd, -, hturn⟩ := hr.split hh
  have hready : d.Ready [] q.scope := hq.ready hn hs h₀
  have hsteers : Template.Unsteered decl := Template.inherited_unsteered.ofJson ht decl hd
  cases hturn with
  | commits instances _ _ _ ha _ =>
    obtain ⟨n, t, u, _, hcount, hin, hu, hinst⟩ := attempt_at (Deployment.evalSteady_continues hn) ha hi
    obtain ⟨_, hinst⟩ := ResourceDeclaration.exists_of_inLoop hinst
    obtain ⟨body, r, hown, hid, htells⟩ :=
      expandInstance_tells hn ((hready.continues hu).atIndex decl i) hplain hsteers hneeds.member hinst hne
    exact ⟨hd, _, q.scope, n, t, body, r, hready, hcount, hin, hown, hid, htells⟩

/-- Previewed and final identities agree. Where what tells the identity of an instance needs neither an identifier that
is made nor another resource, no key of the declaration is computed and variables are told apart by their names, the
identity that an instance tells was previewed at its index before anything was expanded, and is known from then on: be
the instance emitted, recorded as existing, or skipped with an id, and whatever was settled before it. -/
theorem Reached.tells_previewed {v : Json} (ht : Template.ofJson v = .ok d.template) {h : History} {p : Progress}
    (hr : Reached x nested d plan p₀ h p) {instances : List Instance} {i : Nat} (hplain : decl.PlainKeys)
    (hneeds : d.IdentityNeedsNone decl i) (hcommitted : .committed decl instances ∈ h)
    (hi : instances[i]? = some inst) (hne : inst ≠ .skipped none) :
    ∃ before after m previews s r, d.template.resources = before ++ decl :: after ∧ Collects d s₀ before m ∧
      outcome (d.previews m.ledger decl) m.scope = (.ok previews, s) ∧
      outcome (d.previewIdentities m.ledger decl) m.scope = (.ok (previews.filterMap id), s) ∧
      previews[i]? = some (some r) ∧ ⟨decl.ordinal, r.id, r.name⟩ ∈ p₀.ledger.known ∧ inst.Tells r := by
  obtain ⟨hd, l, u, n, _, body, r, hu, hcount, hin, hown, hid, htells⟩ :=
    hr.committed_tells hn hs h₀ ht hplain hneeds hcommitted hi hne
  obtain ⟨before, after, hsplit⟩ := List.append_of_mem hd
  obtain ⟨m, identities, s, hm, hidentities, hknown⟩ := prepare_collects h₀ hsplit
  have hready : d.Ready [] m.scope := hm.ready hn hs
  have hcount' : (outcome (d.instanceCount m.ledger decl) m.scope).1 = .ok n :=
    hu.instanceCount_of hn hready hneeds hcount
  have hpreviews := hidentities
  rw [Deployment.previewIdentities_eq] at hpreviews
  obtain ⟨previews, _, hpreviews, heq⟩ := outcome_bind_eq_ok.mp hpreviews
  cases heq
  have hget : previews[i]? = some (some r) := hready.getElem?_previews hn hneeds hcount' hin hown hid hpreviews
  have hmem : r ∈ previews.filterMap id := List.mem_filterMap.mpr ⟨some r, List.mem_of_getElem? hget, rfl⟩
  exact ⟨before, after, m, previews, s, r, hsplit, hm, hpreviews, hidentities, hget, hknown r hmem, htells⟩

end

/-- A declaration with a loop whose count is a parameter, and whose names are told by a variable and the index. -/
def looped : Json := .obj
  [("parameters", .obj [("n", .obj [("type", .str "int"), ("defaultValue", .int 2)])]),
   ("variables", .obj [("stem", .str "x")]),
   ("resources", .arr
    [.obj [("type", .str "A/b"), ("name", .str "[concat(variables('stem'), copyIndex())]"),
      ("copy", .obj [("name", .str "c"), ("count", .str "[parameters('N')]")]),
      ("properties", .obj [("key", .str "[newGuid()]")])]])]

/-- The second instance has the name that was previewed for it, though an identifier is made among its properties. -/
theorem Reached.tells_previewed_looped :
    ∃ d plan p₀ p decl instances resource inner, Template.ofJson looped = .ok d.template ∧
      outcome (prepare d) (.start {} d.template.resources) = (.ok plan, p₀) ∧
      Reached small small.refuseNested d plan p₀ [.committed decl instances] p ∧ d.template.DistinctNames ∧
      decl.PlainKeys ∧ d.IdentityNeedsNone decl 1 ∧ instances[1]? = some (.emitted resource inner) ∧
      resource.identity.name = "x1" ∧
      ∃ before after m previews s, d.template.resources = before ++ decl :: after ∧ Collects d {} before m ∧
        outcome (d.previews m.ledger decl) m.scope = (.ok previews, s) ∧
        previews[1]? = some (some resource.identity) := by
  have hc : commitsFirst small looped fun d decl instances _ =>
      decide (d.template.DistinctNames ∧ decl.PlainKeys ∧ d.IdentityNeedsNone decl 1 ∧
        instances.map (fun inst => inst.resources.map (·.identity.name)) = [["x0"], ["x1"]]) := by
    decide +kernel
  obtain ⟨d, plan, p₀, decl, instances, p, ht, h₀, -, hr, hc⟩ := exists_of_commitsFirst hc
  obtain ⟨hn, hplain, hneeds, hnames⟩ := of_decide_eq_true hc
  have hsecond : (instances.map fun inst => inst.resources.map (·.identity.name))[1]? = some ["x1"] := by
    rw [hnames]
    rfl
  rw [List.getElem?_map] at hsecond
  obtain ⟨inst, hi, hname⟩ := Option.map_eq_some_iff.mp hsecond
  cases inst with
  | emitted resource inner =>
    obtain ⟨before, after, m, previews, s, r, hsplit, hm, hpreviews, -, hget, -, htells⟩ :=
      hr.tells_previewed hn ⟨rfl, rfl, rfl⟩ h₀ ht hplain hneeds (List.mem_singleton_self _) hi nofun
    obtain rfl : resource.identity = r := htells
    exact ⟨d, plan, p₀, p, decl, instances, resource, inner, ht, h₀, hr, hn, hplain, hneeds, hi,
      List.head_eq_of_cons_eq hname, before, after, m, previews, s, hsplit, hm, hpreviews, hget⟩
  | existing resource => cases hname
  | skipped id => cases hname

end Expander
end ResourceTemplate
