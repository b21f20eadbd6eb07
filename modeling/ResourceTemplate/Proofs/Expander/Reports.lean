import ResourceTemplate.Proofs.Expander.Depth
import ResourceTemplate.Proofs.Expander.Outputs
import ResourceTemplate.Proofs.Expander.SinglePass

namespace ResourceTemplate

variable {lost : Nat → Diagnostic → Prop}

/-- Whether what is reported on the way from a scope to another is among the diagnostics there, but for what is lost of
it: diagnostics at certain positions in the log. -/
structure Scope.Accounts (lost : Nat → Diagnostic → Prop) (s t : Scope) : Prop where
  kept : s.diagnostics ⊆ t.diagnostics
  reported : ∀ i r, t.log[i]? = some r → s.log[i]? = some r ∨ r ∈ t.diagnostics ∨ lost i r

namespace Scope.Accounts

theorem of_eq {s t : Scope} (hd : t.diagnostics = s.diagnostics) (hl : t.log = s.log) : s.Accounts lost t where
  kept := hd ▸ List.Subset.refl _
  reported _ _ hr := .inl (hl ▸ hr)

theorem frame (lost : Nat → Diagnostic → Prop) : Frame (Scope.Accounts lost) where
  refl _ := .of_eq rfl rfl
  trans s t u h k :=
    { kept := List.Subset.trans h.kept k.kept
      reported := fun i r hr => by
        rcases k.reported i r hr with ht | hkept
        · rcases h.reported i r ht with hs | hkept | hlost
          · exact .inl hs
          · exact .inr (.inl (k.kept hkept))
          · exact .inr (.inr hlost)
        · exact .inr hkept }

theorem mono {other : Nat → Diagnostic → Prop} {s t : Scope} (h : s.Accounts lost t)
    (hlost : ∀ i r, lost i r → other i r) : s.Accounts other t where
  kept := h.kept
  reported i r hr := (h.reported i r hr).imp_right fun hkept => hkept.imp_right (hlost i r)

theorem report (s : Scope) (deployment pointer : String) (x : Diagnostic) :
    s.Accounts lost (s.report deployment pointer x) := by
  unfold Scope.report
  dsimp only
  split
  · exact .of_eq rfl rfl
  · refine ⟨List.subset_append_left _ _, fun i r hr => ?_⟩
    rw [List.getElem?_append] at hr
    split at hr
    · exact .inl hr
    · exact .inr (.inl (List.mem_append_right _ (List.mem_of_getElem? hr)))

end Scope.Accounts

/-- What evaluation reports is among the diagnostics of its deployment. -/
theorem Deployment.stepSteady_accounts (d : Deployment) (lost : Nat → Diagnostic → Prop) :
    StepSteady d (Scope.Accounts lost) where
  toFrame := Scope.Accounts.frame lost
  loop _ h := ⟨h.kept, h.reported⟩
  outside h := ⟨h.kept, h.reported⟩
  place _ h := ⟨h.kept, h.reported⟩
  report := Scope.Accounts.report
  guids _ _ := .of_eq rfl rfl
  keepParameter _ _ _ := by
    obtain ⟨secure, hs⟩ := keepParameter_eq _ _ _ _
    rw [hs]
    exact .of_eq rfl rfl
  finishParameter _ _ _ h := by
    obtain ⟨secure, hs⟩ := keepParameter_eq _ _ _ _
    rw [hs]
    exact ⟨h.kept, h.reported⟩
  dropParameter _ h := ⟨h.kept, h.reported⟩
  finishVariable _ _ h := ⟨h.kept, h.reported⟩
  dropVariable _ h := ⟨h.kept, h.reported⟩

theorem Deployment.evalObeys_accounts (d : Deployment) (lost : Nat → Diagnostic → Prop) (l : Ledger) :
    d.EvalObeys l (changing (Scope.Accounts.frame lost)) (changing (Scope.Accounts.frame lost)) :=
  ((d.stepSteady_accounts lost).obeys l).evalObeys

namespace Expander

variable {x : Expander} {nested : Nested} {d : Deployment} {l : Ledger} {plan : Plan} {dependsOn : List String}
  {decl : ResourceDeclaration} {c : Context}

/-! Attempts. -/

def Nested.Reports (nested : Nested) (c : Context) (i : Nat) (r : Diagnostic) : Prop :=
  (nested.on c).2[i]? = some r ∧ c.log[i]? ≠ some r

open Classical in
noncomputable def Nested.within (nested : Nested) (K : Context → Prop) : Nested := fun t identity values log =>
  if K ⟨t, identity, values, log⟩ then nested t identity values log
  else (.error (.depthExceeded identity.name 0), log)

theorem Nested.on_within {K : Context → Prop} (h : K c) : (nested.within K).on c = nested.on c := if_pos h

theorem Nested.log_within {K : Context → Prop} (h : ¬K c) : ((nested.within K).on c).2 = c.log :=
  congrArg Prod.snd (if_neg h)

theorem obeys_within (nested : Nested) (K : Context → Prop) :
    (nested.within K).Obeys (changing (Scope.Accounts.frame fun i r => ∃ c, K c ∧ nested.Reports c i r)) := by
  intro t identity values s
  refine ⟨List.Subset.refl _, fun i r hr => ?_⟩
  change ((nested.within K).on ⟨t, identity, values, s.log⟩).2[i]? = some r at hr
  by_cases hs : s.log[i]? = some r
  · exact .inl hs
  · by_cases hK : K ⟨t, identity, values, s.log⟩
    · rw [Nested.on_within hK] at hr
      exact .inr (.inr ⟨_, hK, hr, hs⟩)
    · rw [Nested.log_within hK] at hr
      exact .inl hr

/-- What a step reports is among the diagnostics of its deployment, or is reported by a context that it consults. -/
theorem Consults.accounts {α : Type} {m : Nested → ScopeM α} {s : Scope} {K : Context → Prop}
    (h : Consults Scope.log nested m s K)
    (hm : ∀ lost (n : Nested), n.Obeys (changing (Scope.Accounts.frame lost)) →
      (changing (Scope.Accounts.frame lost) : Discipline ExpandError Scope).Obeys (m n)) :
    s.Accounts (fun i r => ∃ c, K c ∧ nested.Reports c i r) (outcome (m nested) s).2 := by
  rw [← h.agree (nested.within K) fun c hc => Nested.on_within hc]
  exact hm _ _ (obeys_within nested K) s

theorem attempt_accounts (x : Expander) (nested : Nested) (d : Deployment) (plan : Plan) (decl : ResourceDeclaration)
    (p : Progress) :
    p.scope.Accounts (fun i r => ∃ c, x.DeclarationComes nested d p.ledger (awaitedIds plan p decl) decl p.scope c ∧
      nested.Reports c i r) (x.attempt nested d plan decl p).2 :=
  (consults_expandInstances p.scope).accounts fun lost _ hn =>
    obeys_expandInstances (d.evalObeys_accounts lost p.ledger) hn _ decl

/-- An instance that comes to a context is emitted with what is answered for it. -/
theorem InstanceComes.emits {s t : Scope} {index : Option Nat} {inst : Instance} (hcomes : x.InstanceComes d l decl s c)
    (h : outcome (x.expandInstance nested d l dependsOn decl index) s = (.ok inst, t)) :
    ∃ e log, nested.on c = (.ok e, log) ∧ inst.nested? = some e := by
  obtain ⟨hd, he, hc, hv, hi, rfl, ha, ht⟩ := hcomes
  unfold expandInstance at h
  rw [outcome_bind, hc] at h
  dsimp only at h
  rw [if_pos rfl] at h
  unfold expandActive at h
  simp only [hd, he, if_true] at h
  rw [outcome_bind, hv] at h
  dsimp only at h
  rw [outcome_bind, ScopeM.outcome_lift, hi] at h
  obtain ⟨⟨body, inner⟩, _, hn, h⟩ := outcome_bind_eq_ok.mp h
  obtain ⟨_, _, -, h⟩ := outcome_bind_eq_ok.mp h
  cases h
  rcases expandNested_answered hn with ⟨-, rfl, reason, hnone⟩ | ⟨e, template', t', log, hinner, -, ha', ht', hon⟩
  · rw [ha] at hnone
    cases hnone
  · rw [ha] at ha'
    cases ha'
    rw [ht] at ht'
    cases ht'
    exact ⟨e, log, hon, hinner⟩

/-- The instances of a declaration have among them what is answered for each context that they come to. -/
theorem DeclarationComes.emits {s t : Scope} {instances : List Instance}
    (hcomes : x.DeclarationComes nested d l dependsOn decl s c)
    (h : outcome (x.expandInstances nested d l dependsOn decl) s = (.ok instances, t)) :
    ∃ e log, nested.on c = (.ok e, log) ∧ e.diagnostics ⊆ instances.flatMap Instance.diagnostics := by
  -- an instance with the answer brings its diagnostics
  have brings {inst : Instance} {e : ExpandedDeployment} {log : List Diagnostic} (hon : nested.on c = (.ok e, log))
      (hinst : inst.nested? = some e) (hmem : inst ∈ instances) :
      ∃ e log, nested.on c = (.ok e, log) ∧ e.diagnostics ⊆ instances.flatMap Instance.diagnostics := by
    refine ⟨e, log, hon, fun r hr => List.mem_flatMap.mpr ⟨inst, hmem, ?_⟩⟩
    unfold Instance.diagnostics
    rw [hinst]
    exact hr
  unfold expandInstances at h
  cases hcomes with
  | alone hcopy hc =>
    rw [hcopy] at h
    obtain ⟨inst, u, hinst, h⟩ := outcome_bind_eq_ok.mp h
    cases h
    obtain ⟨e, log, hon, he⟩ := hc.emits hinst
    exact brings hon he List.mem_cons_self
  | @copied copy n i u v before after earlier hcopy hn hi hb hc =>
    rw [hcopy] at h
    dsimp only at h
    rw [outcome_bind, hn] at h
    dsimp only at h
    rw [hi, List.mapM_append] at h
    obtain ⟨first, w, hfirst, h⟩ := outcome_bind_eq_ok.mp h
    rw [hb] at hfirst
    cases hfirst
    obtain ⟨rest, y, hrest, h⟩ := outcome_bind_eq_ok.mp h
    cases h
    rw [List.mapM_cons] at hrest
    obtain ⟨inst, z, hinst, hrest⟩ := outcome_bind_eq_ok.mp hrest
    obtain ⟨others, _, -, hrest⟩ := outcome_bind_eq_ok.mp hrest
    cases hrest
    rw [ScopeM.outcome_withLoop, Prod.mk.injEq] at hinst
    obtain ⟨e, log, hon, he⟩ := hc.emits (Prod.ext hinst.1 rfl)
    exact brings hon he (List.mem_append_right _ List.mem_cons_self)

/-! Turns. -/

section
variable {lost : Nat → Diagnostic → Prop} {p q : Progress}
  (hanswers : ∀ c e log i r, x.TurnComes nested d plan decl p c → nested.on c = (.ok e, log) →
    nested.Reports c i r → r ∈ e.diagnostics ∨ lost i r)
  (hfails : ∀ c e s i r, x.TurnComes nested d plan decl p c → AttemptFails x nested d plan decl p e s →
    nested.Reports c i r → lost i r)
include hfails

/-- What is reported in an attempt that fails is kept, but for what nested deployments report. -/
theorem AttemptFails.accounts (hr : readiness p.ledger (plan.dependenciesOf decl.ordinal) = .ready) {e : ExpandError}
    {s : Scope} (hf : AttemptFails x nested d plan decl p e s) : p.scope.Accounts lost s := by
  have hs := attempt_accounts x nested d plan decl p
  rw [hf.scope_eq] at hs
  exact hs.mono fun i r ⟨c, hcomes, hreports⟩ => hfails c e s i r ⟨hr, hcomes⟩ hf hreports

include hanswers

/-- What is reported in a turn is kept, but for what nested deployments report in an attempt that fails. -/
theorem Turn.accounts {r : Except ExpandError (Option Settlement)} (ht : Turn x nested d plan decl p r q) :
    p.scope.Accounts lost q.scope := by
  have htrans := (Scope.Accounts.frame lost).trans
  cases ht with
  | waits _ => exact .of_eq rfl rfl
  | dependencyFailed dependency _ => exact .report _ _ _ _
  | refers e s hr ha _ _ => exact ha.accounts hfails hr
  | fails e s hr ha _ _ => exact htrans _ _ _ (ha.accounts hfails hr) (.report _ _ _ _)
  | ends e s hr ha _ => exact ha.accounts hfails hr
  | commits instances s _ hr ha hc =>
    have hs := attempt_accounts x nested d plan decl p
    rw [ha] at hs
    have hdiagnostics := Progress.commit_diagnostics hc
    obtain ⟨_, hscope⟩ := Progress.commit_scope hc
    have hlog : q.scope.log = s.log := by rw [hscope]
    refine ⟨fun r hr => ?_, fun i r hreported => ?_⟩
    · rw [hdiagnostics]
      exact List.mem_append_left _ (hs.kept hr)
    · rw [hlog] at hreported
      rw [hdiagnostics, List.mem_append]
      rcases hs.reported i r hreported with hbefore | hkept | ⟨c, hcomes, hreports⟩
      · exact .inl hbefore
      · exact .inr (.inl (.inl hkept))
      · -- it is among what the instances bring, unless the nested deployment lost it
        obtain ⟨e, log, hon, hsub⟩ := hcomes.emits ha
        exact .inr ((hanswers c e log i r ⟨hr, hcomes⟩ hon hreports).imp_left fun he => .inr (hsub he))

end

/-! Deployments. -/

theorem evalOutputs_accounts {lost : Nat → Diagnostic → Prop} {acc outputs : Entries Json} {os : List OutputDefinition}
    {p q : Progress} (h : outcome (evalOutputs d acc os) p = (.ok outputs, q)) : p.scope.Accounts lost q.scope := by
  have htrans := (Scope.Accounts.frame lost).trans
  induction os generalizing acc p with
  | nil =>
    cases h
    exact .of_eq rfl rfl
  | cons o os ih =>
    have hs := obeys_evalOutput (d.evalObeys_accounts lost p.ledger) ("/outputs/" ++ o.name) o p.scope
    obtain ⟨p', -, hscope, h⟩ := evalOutputs_next rfl h
    rcases hscope with hscope | ⟨pointer, r, hscope⟩
    · exact htrans _ _ _ hs (hscope ▸ ih h)
    · exact htrans _ _ _ hs (htrans _ _ _ (.report _ d.identity.name pointer r) (hscope ▸ ih h))

def Abandons (x : Expander) (nested : Nested) (c child : Context) : Prop :=
  ∃ d plan p decl q e s, x.Prepares c d plan p ∧ Tries x nested d plan plan.order p decl q ∧
    x.TurnComes nested d plan decl q child ∧ AttemptFails x nested d plan decl q e s

/-- What is reported while a context is expanded is among the diagnostics of the deployment, if there is one, but for
what is lost: all that nested deployments report in attempts that fail, and what those that are kept do not hold. -/
theorem expandWith_accounts {lost : Nat → Diagnostic → Prop}
    (hanswers : ∀ child e log i r, x.Comes nested c child → nested.on child = (.ok e, log) →
      nested.Reports child i r → r ∈ e.diagnostics ∨ lost i r)
    (habandons : ∀ child i r, x.Abandons nested c child → nested.Reports child i r → lost i r)
    {e : ExpandedDeployment} {log : List Diagnostic} (h : (x.expandWith nested).on c = (.ok e, log)) :
    ∀ i r, log[i]? = some r → c.log[i]? = some r ∨ r ∈ e.diagnostics ∨ lost i r := by
  have hframe := Scope.Accounts.frame lost
  obtain ⟨d, s, outputs, last, hc, hr, rfl, rfl⟩ := expandWith_ok h
  rw [run_eq_prepare] at hr
  obtain ⟨plan, p, hp, hr⟩ := outcome_bind_eq_ok.mp hr
  obtain ⟨_, q, hs, hr⟩ := outcome_bind_eq_ok.mp hr
  have hprepares : x.Prepares c d plan p := ⟨s, hc, hp⟩
  -- it is created, prepared and settled, and its outputs are evaluated
  have hcreated : Scope.Accounts lost { log := c.log } s := by
    have ho := d.evalObeys_accounts lost (.ofDeclarations [])
    have hcreate := Deployment.obeys_create ho.surrounds.lift ho.surrounds.report c.template x.options c.identity
      c.values { log := c.log }
    rwa [hc] at hcreate
  have hprepared : s.Accounts lost p.scope := by
    have hprepare := obeys_prepare (d.evalObeys_accounts lost) (.start s c.template.resources)
    rwa [hp] at hprepare
  have hsettled : p.scope.Accounts lost q.scope := by
    have hpasses : p.scope.Accounts lost (outcome (x.settleAll nested d plan) p).2.scope := by
      refine passes_frame (frame_scope hframe) fun decl m ht => ?_
      obtain ⟨r, m', hturn, ho⟩ := settle_turn x nested d plan decl m
      rw [ho]
      exact hturn.accounts
        (fun child e log i r hcomes hon =>
          hanswers child e log i r ⟨d, plan, p, decl, m, hprepares, ht, hcomes⟩ hon)
        (fun child e s i r hcomes hf =>
          habandons child i r ⟨d, plan, p, decl, m, e, s, hprepares, ht, hcomes, hf⟩)
    rwa [hs] at hpasses
  have hall := hframe.trans _ _ _ hcreated (hframe.trans _ _ _ hprepared
    (hframe.trans _ _ _ hsettled (evalOutputs_accounts hr)))
  exact hall.reported

/-- The reports that the expansion of a context loses, below which more deployments may be nested: those that a
deployment makes in an attempt that fails, and those that one which it comes to loses. -/
inductive Loses (x : Expander) : (depth : Nat) → Context → Nat → Diagnostic → Prop
  | abandoned {depth : Nat} {c child : Context} {i : Nat} {r : Diagnostic} (h : x.Abandons (x.nestedAt depth) c child)
      (hr : (x.nestedAt depth).Reports child i r) : Loses x depth c i r
  | nested {depth : Nat} {c child : Context} {i : Nat} {r : Diagnostic} (h : x.Comes (x.nestedAt (depth + 1)) c child)
      (hl : Loses x depth child i r) : Loses x (depth + 1) c i r

theorem expandAt_accounts {depth : Nat} {e : ExpandedDeployment} {log : List Diagnostic}
    (h : (x.expandAt depth).on c = (.ok e, log)) :
    ∀ i r, log[i]? = some r → c.log[i]? = some r ∨ r ∈ e.diagnostics ∨ x.Loses depth c i r := by
  induction depth generalizing c e log with
  | zero =>
    rw [expandAt_eq] at h
    exact expandWith_accounts (fun _ _ _ _ _ _ hon _ => by cases hon) (fun _ _ _ => .abandoned) h
  | succ depth ih =>
    rw [expandAt_eq] at h
    refine expandWith_accounts (fun child e log i r hcomes hon hreports => ?_) (fun _ _ _ => .abandoned) h
    obtain ⟨hlog, hnew⟩ := hreports
    rw [hon] at hlog
    exact ((ih hon i r hlog).resolve_left hnew).imp_right (.nested hcomes)

/-- Every diagnostic that is reported anywhere in the tree of deployments, in whatever pass and attempt, is among those
of the expansion, unless the report is made by a deployment that is nested in a declaration whose attempt fails. -/
theorem expand_keeps_reports {t : Template} {values : Entries Json} {e : ExpandedDeployment} {log : List Diagnostic}
    (h : x.expand t values = (.ok e, log)) {i : Nat} {r : Diagnostic} (hr : log[i]? = some r)
    (hkept : ¬x.Loses x.options.maxDepth (x.root t values) i r) : r ∈ e.diagnostics := by
  have hx : (x.expandAt x.options.maxDepth).on (x.root t values) = (.ok e, log) := h
  rcases expandAt_accounts hx i r hr with hbefore | hmem | hlost
  · cases hbefore
  · exact hmem
  · exact absurd hlost hkept

theorem not_loses_zero {i : Nat} {r : Diagnostic} : ¬x.Loses 0 c i r := by
  rintro (⟨-, hlog, hnew⟩ | -)
  exact hnew hlog

def commitsAtOnce (x : Expander) (nested : Nested) (c : Context) : Bool :=
  match outcome (Deployment.create c.template x.options c.identity c.values) { log := c.log } with
  | (.error _, _) => false
  | (.ok d, s) =>
    match outcome (prepare d) (.start s c.template.resources) with
    | (.error _, _) => false
    | (.ok plan, p) =>
      match plan.order with
      | [i] => p.ledger.declarations[i]?.any fun decl =>
          (outcome (x.expandDeclaration nested d plan decl) p).1.toOption.isSome
      | _ => false

theorem not_abandons_of_commitsAtOnce (h : x.commitsAtOnce nested c = true) (child : Context) :
    ¬x.Abandons nested c child := by
  rintro ⟨d, plan, p, decl, q, e, s, ⟨s₀, hc, hp⟩, ht, -, hf⟩
  unfold commitsAtOnce at h
  rw [hc] at h
  dsimp only at h
  rw [hp] at h
  dsimp only at h
  split at h
  · rename_i i horder
    rw [horder] at ht
    rcases tries_cons_iff.mp ht with ⟨before, j, after, deferred, hi, hpass, hd⟩ | ⟨deferred, m, hpass, hlength, ht⟩
    · -- the turn is the first of all
      cases before with
      | nil =>
        cases hi
        cases hpass
        obtain ⟨decl', hd', hcommits⟩ := (Option.any_eq_true _ _).mp h
        rw [hd] at hd'
        cases hd'
        rw [hf.outcome_eq] at hcommits
        cases hcommits
      | cons _ before =>
        obtain ⟨-, hi⟩ := List.cons.inj hi
        exact absurd hi (by simp)
    · -- one that is left would be the only one
      have hle := length_pass_le hpass
      simp only [List.length_cons, List.length_nil] at hle hlength
      obtain rfl := List.eq_nil_of_length_eq_zero (show deferred.length = 0 by omega)
      exact not_tries_nil ht
  · cases h

/-- A template with a nested deployment, which is given a value for a parameter that its template does not declare. -/
def oversupplied (values declared : Entries Json) : Json := .obj
  [("resources", .arr [.obj [("type", .str ResourceId.deploymentType), ("name", .str "n"),
    ("properties", .obj
      [("parameters", .obj (("extra", .obj [("value", .int 1)]) :: values)),
       ("template", .obj [("parameters", .obj declared), ("resources", .arr [])])])]])]

def oversupply : Diagnostic := (Diagnostic.unknownParameterValue "extra").located "n" "/parameters/extra"

def shallow : Expander := { small with options := { small.options with maxDepth := 1 } }

theorem expand_keeps_reports_oversupplied :
    ∃ t e log, Template.ofJson (oversupplied [] []) = .ok t ∧ shallow.expand t [] = (.ok e, log) ∧
      log[0]? = some oversupply ∧ (∀ i r, ¬shallow.Loses 1 (shallow.root t []) i r) ∧ oversupply ∈ e.diagnostics := by
  have hc : (Template.ofJson (oversupplied [] [])).toOption.any fun t =>
      shallow.commitsAtOnce (shallow.nestedAt 1) (shallow.root t []) && ((shallow.expand t []).1.toOption.isSome &&
        (shallow.expand t []).2[0]? == some oversupply) := by decide +kernel
  obtain ⟨t, ht, hc⟩ := (Option.any_eq_true _ _).mp hc
  obtain ⟨hcommits, hc⟩ := (Bool.and_eq_true _ _).mp hc
  obtain ⟨hsome, hlog⟩ := (Bool.and_eq_true _ _).mp hc
  obtain ⟨e, he⟩ := Option.isSome_iff_exists.mp hsome
  have hlog := eq_of_beq hlog
  have hx : shallow.expand t [] = (.ok e, (shallow.expand t []).2) := Prod.ext (toOption_eq_some.mp he) rfl
  have hkept (i : Nat) (r : Diagnostic) : ¬shallow.Loses 1 (shallow.root t []) i r := by
    rintro (⟨habandons, -⟩ | ⟨-, hl⟩)
    · exact not_abandons_of_commitsAtOnce hcommits _ habandons
    · exact not_loses_zero hl
  exact ⟨t, e, _, toOption_eq_some.mp ht, hx, hlog, hkept, expand_keeps_reports hx hlog (hkept _ _)⟩

/-- A nested deployment that cannot be created, for a value that does not fit, takes its report with it. -/
theorem expand_loses_report :
    ∃ t e log, Template.ofJson (oversupplied [("p", .obj [("value", .str "text")])] [("p", .obj [("type", .str "int")])]) =
      .ok t ∧ shallow.expand t [] = (.ok e, log) ∧ oversupply ∈ log ∧ oversupply ∉ e.diagnostics := by
  have hc : (Template.ofJson (oversupplied [("p", .obj [("value", .str "text")])]
      [("p", .obj [("type", .str "int")])])).toOption.any fun t =>
        (shallow.expand t []).1.toOption.any (fun e => !e.diagnostics.contains oversupply) &&
          (shallow.expand t []).2.contains oversupply := by decide +kernel
  obtain ⟨t, ht, hc⟩ := (Option.any_eq_true _ _).mp hc
  obtain ⟨hany, hlog⟩ := (Bool.and_eq_true _ _).mp hc
  obtain ⟨e, he, hmissing⟩ := (Option.any_eq_true _ _).mp hany
  have hx : shallow.expand t [] = (.ok e, (shallow.expand t []).2) := Prod.ext (toOption_eq_some.mp he) rfl
  refine ⟨t, e, _, toOption_eq_some.mp ht, hx, List.contains_iff_mem.mp hlog, fun hmem => ?_⟩
  rw [List.contains_iff_mem.mpr hmem] at hmissing
  cases hmissing

end Expander
end ResourceTemplate
