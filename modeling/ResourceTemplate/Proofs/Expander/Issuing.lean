import ResourceTemplate.Proofs.Deployment.Landing
import ResourceTemplate.Proofs.Expander.Forwarding
import ResourceTemplate.Proofs.Expander.Preparation

namespace ResourceTemplate

/-- Whether an output is declared as a call of `newGuid`, on no condition and not as copies. -/
def OutputDefinition.MakesGuid (o : OutputDefinition) : Prop :=
  o.condition.isNone = true ∧ o.copy.isNone = true ∧ ∃ w, o.value.bind Json.str? = some w ∧ ResourceTemplate.MakesGuid w

instance (o : OutputDefinition) : Decidable o.MakesGuid :=
  inferInstanceAs (Decidable (_ ∧ _ ∧ ∃ w, o.value.bind Json.str? = some w ∧ ResourceTemplate.MakesGuid w))

namespace History

/-- Where, among all that a history emits, the resources of an instance begin that has a position in the instances of a
settlement. -/
def position (h : History) (a b : Nat) : Nat :=
  ((instances (h.take a) ++ (instances (h.drop a)).take b).flatMap Instance.block).length

theorem position_eq {h before after : History} {decl : ResourceDeclaration} {first last : List Instance}
    (hh : h = before ++ .committed decl (first ++ last) :: after) :
    h.position before.length first.length = ((instances before ++ first).flatMap Instance.block).length := by
  have hinstances : instances (.committed decl (first ++ last) :: after) = first ++ (last ++ instances after) := by
    simp [instances, Settlement.instances]
  rw [position, hh, List.take_left, List.drop_left, hinstances, List.take_left]

end History

namespace Expander

variable {x : Expander} {depth : Nat} {d : Deployment} {l : Ledger}

/-! ### Outputs -/

/-- Whether an instance of a declaration is a resource that is made in a scope to which evaluation leads from another,
where identifiers of these names land in the members of the declaration; or it is none that is emitted. -/
def Fills (x : Expander) (nested : Nested) (d : Deployment) (l : Ledger) (dependsOn : List String)
    (decl : ResourceDeclaration) (s : Scope) (inst : Instance) (issued : List (PropertyPath × String)) : Prop :=
  ∀ r inner, inst = .emitted r inner → ∃ index t body after last, d.LeadsTo s t ∧ d.LeadsTo t last ∧
    outcome (d.evalObject l decl.pointer decl.ownMembers) t = (.ok body, after) ∧
    outcome (x.expandActive nested d l dependsOn decl index) t = (.ok (.emitted r inner), last) ∧
    Value.Lands (.obj decl.ownMembers) (.obj body) issued

section
variable {nested : Nested} {plan : Plan} {dependsOn : List String} {decl : ResourceDeclaration} {s t : Scope}

theorem Fills.of_leadsTo {inst : Instance} {issued : List (PropertyPath × String)}
    (h : Fills x nested d l dependsOn decl t inst issued) (hs : d.LeadsTo s t) :
    Fills x nested d l dependsOn decl s inst issued := by
  intro r inner hr
  obtain ⟨index, u, body, after, last, hu, hrest⟩ := h r inner hr
  exact ⟨index, u, body, after, last, d.steady_leadsTo.trans _ _ _ hs hu, hrest⟩

theorem evalSteady_leads_issues (d : Deployment) :
    EvalSteady d fun s t => d.LeadsTo s t ∧ ∃ names, d.Issues s names t :=
  d.steady_leadsTo.evalSteady.and d.evalSteady_issues

theorem expandInstance_fills {index : Option Nat} {inst : Instance}
    (h : outcome (x.expandInstance nested d l dependsOn decl index) s = (.ok inst, t)) :
    d.LeadsTo s t ∧ ∃ issued, d.Issued s issued t ∧ Fills x nested d l dependsOn decl s inst issued := by
  have hsteady := evalSteady_leads_issues d
  have hE := hsteady.evalObeys l
  have hn := hsteady.runNested nested
  have hall := obeys_expandInstance (x := x) hE hn dependsOn decl index s
  rw [h] at hall
  refine ⟨hall.1, ?_⟩
  unfold expandInstance at h
  obtain ⟨b, u, hb, h⟩ := outcome_bind_eq_ok.mp h
  have hu := obeys_holds hE (decl.pointer ++ "/condition") decl.condition s
  rw [hb] at hu
  cases b with
  | false =>
    rw [if_neg Bool.false_ne_true] at h
    obtain ⟨_, _, -, h⟩ := outcome_bind_eq_ok.mp h
    cases h
    exact ⟨[], .nil hall.2, nofun⟩
  | true =>
    rw [if_pos rfl] at h
    have hactive := obeys_expandActive (x := x) hE hn dependsOn decl index u
    rw [h] at hactive
    obtain ⟨k, hk, hobeys⟩ := x.exists_expandActive_eq nested d l dependsOn decl index
    have hrest := h
    rw [hk] at hrest
    obtain ⟨body, v, hbody, hrest⟩ := outcome_bind_eq_ok.mp hrest
    have hlast := hobeys hE hn body v
    rw [hrest] at hlast
    obtain ⟨issued, hissued, hlands⟩ := Deployment.lands_evalObject hbody
    refine ⟨issued, .after_steps hu.2 (hissued.then_steps hlast.2), ?_⟩
    rintro r inner rfl
    exact ⟨index, u, body, v, t, hu.1, hactive.1, hbody, h, hlands⟩

/-- The identifiers of the instance of an index land in it, in the loop of its declaration. -/
theorem inLoop_fills {i : Nat} {index : Option Nat} {inst : Instance}
    (h : outcome (decl.inLoop i (x.expandInstance nested d l dependsOn decl index)) s = (.ok inst, t)) :
    d.LeadsTo s t ∧ ∃ issued, d.Issued s issued t ∧ Fills x nested d l dependsOn decl s inst issued := by
  unfold ResourceDeclaration.inLoop at h
  cases hcopy : decl.copy with
  | none =>
    rw [hcopy] at h
    exact expandInstance_fills h
  | some copy =>
    rw [hcopy] at h
    dsimp only at h
    rw [ScopeM.outcome_withLoop] at h
    obtain ⟨hr, rfl⟩ := Prod.mk.inj h
    obtain ⟨hleads, issued, hissued, hfills⟩ := expandInstance_fills (Prod.ext hr rfl)
    have hin : d.LeadsTo s { s with loops := (copy.name, (i : Int)) :: s.loops } := .loops s _
    exact ⟨d.steady_leadsTo.loop _ hleads, issued, hissued.congr rfl rfl, hfills.of_leadsTo hin⟩

/-- The identifiers of instances that are expanded in turn land in each of them, told apart by its position. -/
theorem mapM_fills {indices : List Nat} {instances : List Instance}
    (h : outcome (indices.mapM fun i => decl.inLoop i (x.expandInstance nested d l dependsOn decl
      (decl.copy.map fun _ => i))) s = (.ok instances, t)) (first : Nat) :
    ∃ issued : List ((Nat × PropertyPath) × String), d.Issued s issued t ∧ ∀ b inst, instances[b]? = some inst →
      ∃ own, Fills x nested d l dependsOn decl s inst own ∧ ∀ e ∈ own, ((first + b, e.1), e.2) ∈ issued := by
  induction indices generalizing instances s first with
  | nil =>
    cases h
    exact ⟨[], .nil ⟨[], .quiet rfl⟩, fun _ _ hb => by cases hb⟩
  | cons i indices ih =>
    rw [List.mapM_cons] at h
    obtain ⟨inst, u, hinst, h⟩ := outcome_bind_eq_ok.mp h
    obtain ⟨others, v, hothers, h⟩ := outcome_bind_eq_ok.mp h
    cases h
    obtain ⟨hleads, own, hown, hfills⟩ := inLoop_fills hinst
    obtain ⟨rest, hrest, hall⟩ := ih hothers (first + 1)
    refine ⟨_, (hown.map (Prod.mk first)).append hrest, ?_⟩
    intro b inst' hb
    cases b with
    | zero =>
      cases hb
      exact ⟨own, hfills, fun e he => List.mem_append_left _ (List.mem_map.mpr ⟨e, he, rfl⟩)⟩
    | succ b =>
      obtain ⟨more, hmore, hmem⟩ := hall b inst' hb
      refine ⟨more, hmore.of_leadsTo hleads, fun e he => List.mem_append_right _ ?_⟩
      have hnext := hmem e he
      rwa [Nat.add_assoc, Nat.add_comm 1 b] at hnext

theorem attempt_fills {p : Progress} {instances : List Instance}
    (h : x.attempt nested d plan decl p = (.ok instances, s)) :
    ∃ issued : List ((Nat × PropertyPath) × String), d.Issued p.scope issued s ∧
      ∀ b inst, instances[b]? = some inst → ∃ own,
        Fills x nested d p.ledger (awaitedIds plan p decl) decl p.scope inst own ∧
          ∀ e ∈ own, ((b, e.1), e.2) ∈ issued := by
  unfold attempt at h
  rw [expandInstances_eq] at h
  obtain ⟨n, u, hn, h⟩ := outcome_bind_eq_ok.mp h
  have hu := ((evalSteady_leads_issues d).evalObeys p.ledger).instanceCount decl p.scope
  rw [hn] at hu
  obtain ⟨issued, hissued, hall⟩ := mapM_fills h 0
  refine ⟨issued, .after_steps hu.2 hissued, fun b inst hb => ?_⟩
  obtain ⟨own, hown, hmem⟩ := hall b inst hb
  refine ⟨own, hown.of_leadsTo hu.1, fun e he => ?_⟩
  have hb := hmem e he
  rwa [Nat.zero_add] at hb

theorem Turn.fills {p q : Progress} {r : Option Settlement} (h : Turn x nested d plan decl p (.ok r) q) :
    ∃ issued : List ((Nat × PropertyPath) × String), d.Issued p.scope issued q.scope ∧
      ∀ settled instances, r = some (.committed settled instances) → ∀ b inst, instances[b]? = some inst → ∃ own,
        Fills x nested d p.ledger (awaitedIds plan p settled) settled p.scope inst own ∧
          ∀ e ∈ own, ((b, e.1), e.2) ∈ issued := by
  have hsteps := h.steady d.evalSteady_issues fun _ _ => ⟨[], .quiet rfl⟩
  cases h with
  | waits => exact ⟨[], .nil hsteps, nofun⟩
  | dependencyFailed => exact ⟨[], .nil hsteps, nofun⟩
  | refers => exact ⟨[], .nil hsteps, nofun⟩
  | fails => exact ⟨[], .nil hsteps, nofun⟩
  | commits instances s _ _ ha hc =>
    obtain ⟨issued, hissued, hall⟩ := attempt_fills ha
    obtain ⟨diagnostics, hq⟩ := Progress.commit_scope hc
    refine ⟨issued, hissued.congr rfl (by rw [hq]), ?_⟩
    rintro _ _ ⟨⟩
    exact hall

/-- The identifiers of all declarations that an expansion settled land in their instances, told apart by the position of
the declaration in the history and that of the instance. -/
theorem Reached.fills {p₀ p : Progress} {h : History} (hr : Reached x nested d plan p₀ h p) :
    ∃ issued : List ((Nat × Nat × PropertyPath) × String), d.Issued p₀.scope issued p.scope ∧
      ∀ a decl instances, h[a]? = some (.committed decl instances) → ∀ b inst, instances[b]? = some inst →
        ∃ before q own, Reached x nested d plan p₀ before q ∧
          Fills x nested d q.ledger (awaitedIds plan q decl) decl q.scope inst own ∧
            ∀ e ∈ own, ((a, b, e.1), e.2) ∈ issued := by
  induction hr with
  | start => exact ⟨[], .nil ⟨[], .quiet rfl⟩, fun _ _ _ ha => by cases ha⟩
  | ends hp hm hs ht ih =>
    obtain ⟨issued, hissued, hall⟩ := ih
    exact ⟨issued, hissued.then_steps (ht.steady d.evalSteady_issues fun _ _ => ⟨[], .quiet rfl⟩), hall⟩
  | @turn h p q decl r hp hm hs ht ih =>
    obtain ⟨issued, hissued, hall⟩ := ih
    obtain ⟨more, hmore, hlast⟩ := ht.fills
    refine ⟨_, hissued.append (hmore.map (Prod.mk h.length)), ?_⟩
    intro a settled instances ha b inst hb
    rcases Nat.lt_or_ge a h.length with hlt | hge
    · rw [List.getElem?_append_left hlt] at ha
      obtain ⟨before, q', own, hq', hown, hmem⟩ := hall a settled instances ha b inst hb
      exact ⟨before, q', own, hq', hown, fun e he => List.mem_append_left _ (hmem e he)⟩
    · rw [List.getElem?_append_right hge] at ha
      obtain ⟨hfirst, hr⟩ : a = h.length ∧ r = some (.committed settled instances) := by
        cases r with
        | none => cases ha
        | some e =>
          obtain ⟨hlt, he⟩ := List.getElem?_eq_some_iff.mp ha
          simp only [Option.toList_some, List.length_singleton] at hlt
          simp only [Option.toList_some, List.getElem_singleton] at he
          exact ⟨by omega, congrArg some he⟩
      obtain ⟨own, hown, hmem⟩ := hlast settled instances hr b inst hb
      refine ⟨h, p, own, hp, hown, fun e he => List.mem_append_right _ (List.mem_map.mpr ⟨_, hmem e he, ?_⟩)⟩
      rw [hfirst]

end

/-! ### Trees -/

/-- Whether the tree of a run that gives a deployment holds another run: it holds the run itself, and what the tree of a
run holds that is nested in a resource which is emitted. -/
inductive Holds (x : Expander) : {depth : Nat} → Run x depth → ExpandedDeployment → {leafDepth : Nat} →
    Run x leafDepth → ExpandedDeployment → Prop where
  | here {depth : Nat} (run : Run x depth) (e : ExpandedDeployment) : Holds x run e run e
  | nested {depth leafDepth n : Nat} {run : Run x (depth + 1)} {child : Run x depth} {leaf : Run x leafDepth}
      {e inner given : ExpandedDeployment} {decl : ResourceDeclaration} {r : ResourceValue}
      (hb : run.history.Begins n decl (.emitted r (some inner))) (E : Emission run decl r (some inner))
      (hc : E.Deploys child) (h : Holds x child inner leaf given) : Holds x run e leaf given

namespace Holds

variable {leafDepth innerDepth : Nat} {run : Run x depth} {leaf : Run x leafDepth} {inner : Run x innerDepth}
  {e given innerGiven : ExpandedDeployment}

theorem trans (h : Holds x run e leaf given) (k : Holds x leaf given inner innerGiven) :
    Holds x run e inner innerGiven := by
  induction h with
  | here => exact k
  | nested hb E hc _ ih => exact .nested hb E hc (ih k)

theorem isOf {identity : DeploymentIdentity} {values : Entries Json} (h : Holds x run e leaf given)
    (hof : run.IsOf identity values e) : ∃ leafIdentity leafValues, leaf.IsOf leafIdentity leafValues given := by
  induction h generalizing identity values with
  | here run e => exact ⟨identity, values, hof⟩
  | nested hb E hc _ ih => exact ih hc.isOf

end Holds

/-! ### Runs -/

namespace Run

variable (run : Run x depth) (given : ExpandedDeployment)

/-- The identifiers of a run land in its resources, told apart by their positions. -/
theorem fills : ∃ issued : List ((Nat × PropertyPath) × String),
    run.deployment.Issued run.scope issued run.final.scope ∧
      ∀ n decl r inner, run.history.Begins n decl (.emitted r inner) → ∃ E : Emission run decl r inner,
        ∀ place w, Value.plainAt? place (.obj decl.ownMembers) = some (.str w) → MakesGuid w →
          ∃ name, ((n, place), name) ∈ issued ∧ (Json.obj E.body).at? place = some (.str (Guid.ofName name)) := by
  have hstart := prepare_steady run.deployment.evalSteady_issues (.start run.scope run.deployment.template.resources)
  rw [run.prepared] at hstart
  obtain ⟨issued, hissued, hall⟩ := run.reached.fills
  refine ⟨_, .after_steps hstart (hissued.map fun k => (run.history.position k.1 k.2.1, k.2.2)), ?_⟩
  intro n decl r inner hb
  obtain ⟨before, after, first, last, hh, hn⟩ := hb
  have ha : run.history[before.length]? = some (.committed decl (first ++ .emitted r inner :: last)) := by
    rw [hh, List.getElem?_append_right (Nat.le_refl _), Nat.sub_self]
    rfl
  have hi : (first ++ .emitted r inner :: last)[first.length]? = some (Instance.emitted r inner) := by
    rw [List.getElem?_append_right (Nat.le_refl _), Nat.sub_self]
    rfl
  obtain ⟨earlier, q, own, hq, hown, hmem⟩ := hall _ _ _ ha _ _ hi
  obtain ⟨index, t, body, u, v, ht, hv, hbody, hactive, hlands⟩ := hown r inner rfl
  obtain ⟨full, hx, hids, hmade⟩ := expandActive_emitted hactive
  refine ⟨⟨earlier, q, t, body, u, full, v, hq, ht, hbody, hx, hv, hids ▸ hmade⟩, fun place w hplace hw => ?_⟩
  obtain ⟨name, hname, hat⟩ := hlands place w hplace hw
  refine ⟨name, List.mem_map.mpr ⟨_, hmem _ hname, ?_⟩, hat⟩
  rw [hn, History.position_eq hh]

end Run

namespace Run.IsOf

variable {run : Run x depth} {identity : DeploymentIdentity} {values : Entries Json} {e : ExpandedDeployment}
  (h : run.IsOf identity values e)
include h

end Run.IsOf

end Expander
end ResourceTemplate
