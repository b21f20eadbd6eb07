import ResourceTemplate.Proofs.Deployment.Caching
import ResourceTemplate.Proofs.Deployment.Types
import ResourceTemplate.Proofs.Expander.Outputs

namespace ResourceTemplate

/-- Values that an output may have: null, and what has its declared type if there is one. -/
def OutputDefinition.Accepts (o : OutputDefinition) (v : Json) : Prop :=
  ∀ type, o.type = some type → v = .null ∨ type.accepts v = true

namespace Deployment

/-- Whatever was evaluated in a deployment, the values that its parameters have fit. -/
theorem Evaluated.typed {d : Deployment} {s : Scope} (h : d.Evaluated s) (hd : d.SuppliesFitting) :
    d.Typed s := by
  induction h with
  | fresh hp _ => exact .of_fresh hp
  | change _ hp _ ih => exact ih.of_eq hp
  | inquiry l i _ ih => exact hd.steady.inquiry l (d.slotCount + 1) i _ ih

end Deployment

namespace Expander

variable {x : Expander} {nested : Nested} {d : Deployment} {l : Ledger}

theorem checkOutput_ok {pointer : String} {o : OutputDefinition} {v : Json}
    (h : checkOutput pointer o v = .ok ()) : o.Accepts v := by
  intro type ht
  unfold checkOutput at h
  rw [ht] at h
  dsimp only at h
  split at h
  · rename_i hv
    rcases (Bool.or_eq_true _ _).mp hv with hv | hv
    · cases v with
      | null => exact .inl rfl
      | _ => cases hv
    · exact .inr hv
  · cases h

theorem yields_evalOutput (pointer : String) (o : OutputDefinition) :
    Yields (evalOutput d l pointer o) fun r => ∀ v ∈ r, o.Accepts v := by
  refine .after fun holds => ?_
  split
  · refine .after fun v => .bind (Q := fun _ => o.Accepts v)
      (ScopeM.yields_lift fun _ h => checkOutput_ok h) fun _ hv => .pure ?_
    rintro _ ⟨⟩
    exact hv
  · exact .pure nofun

/-- Every output that is not from before is accepted by a declaration of its name. -/
theorem evalOutputs_accepts {acc outputs : Entries Json} {os : List OutputDefinition} {p q : Progress}
    (h : outcome (evalOutputs d acc os) p = (.ok outputs, q)) {name : String} {v : Json}
    (hv : outputs.get? name = some v) :
    acc.get? name = some v ∨ ∃ o ∈ os, o.name = name ∧ o.Accepts v := by
  refine (evalOutputs_get? h hv).imp_right fun ⟨o, ho, hname, _, _, hgives⟩ => ⟨o, ho, hname, ?_⟩
  have hok := toOption_eq_some.mp (Option.join_eq_some_iff.mp hgives)
  exact yields_evalOutput _ o _ _ _ (Prod.ext hok rfl) v rfl

theorem expandWith_accepts {t : Template} {identity : DeploymentIdentity} {values : Entries Json}
    {log log' : List Diagnostic} {e : ExpandedDeployment}
    (h : x.expandWith nested t identity values log = (.ok e, log')) {name : String} {v : Json}
    (hv : (name, v) ∈ e.outputs) : ∃ o ∈ t.outputs, o.name = name ∧ o.Accepts v := by
  have hget := Entries.get?_of_mem (expandWith_keys h) hv
  obtain ⟨d, s, outputs, p, hc, hr, rfl, -⟩ := expandWith_ok h
  obtain ⟨rfl, -, -⟩ := create_ok hc
  rw [run_eq_prepare] at hr
  obtain ⟨plan, p₀, -, hr⟩ := outcome_bind_eq_ok.mp hr
  obtain ⟨_, q, -, hr⟩ := outcome_bind_eq_ok.mp hr
  rcases evalOutputs_accepts hr hget with hnil | ho
  · cases hnil
  · exact ho

/-- Declared types are enforced at every boundary of a deployment, be it the root or a nested one, with
whatever values its caller supplies. Parameters give values that fit their declarations, after every history
of evaluations and wherever its expansion gets to. The body of a function finds values that are accepted by
a parameter of the name, and what the function gives is accepted by its output type. Each output of what
the deployment expands to is accepted by its declaration. -/
theorem types_enforced {t : Template} {identity : DeploymentIdentity} {values : Entries Json}
    {log : List Diagnostic} {s₀ : Scope}
    (hc : outcome (Deployment.create t x.options identity values) { log } = (.ok d, s₀)) :
    (∀ s, d.Evaluated s → d.Enforces s) ∧
    (∀ nested plan p₀ h p, outcome (prepare d) (.start s₀ t.resources) = (.ok plan, p₀) →
      Reached x nested d plan p₀ h p → d.Enforces p.scope) ∧
    (∀ f ∈ t.functions, ∀ qualified arguments bound,
      UserFunction.bindParameters qualified [] f.parameters arguments = .ok bound →
      ∀ call name s v, (outcome ((f.bodyHost d call bound).parameterValue name) s).1 = .ok v →
        ∃ param ∈ f.parameters, Name.same param.1 name = true ∧ param.2.accepts v = true) ∧
    (∀ depth ns name arguments s v,
      (outcome (d.callFunction depth ns name arguments) s).1 = .ok v → ∃ f bound,
        t.function? ns name = some f ∧
        UserFunction.bindParameters (ns ++ "." ++ name) [] f.parameters arguments = .ok bound ∧
        f.outputType.accepts v = true) ∧
    ∀ nested e log', x.expandWith nested t identity values log = (.ok e, log') →
      ∀ name v, (name, v) ∈ e.outputs → ∃ o ∈ t.outputs, o.name = name ∧ o.Accepts v := by
  have hd := Deployment.suppliesFitting_of_create hc
  have hfresh := Deployment.create_parameters t x.options identity values { log }
  rw [hc] at hfresh
  obtain ⟨rfl, -, -⟩ := create_ok hc
  refine ⟨fun s hs => (hs.typed hd).enforces hd, ?_,
    fun f _ _ _ _ hb _ _ _ _ => f.parameterValue_accepts hb,
    fun _ _ _ _ _ _ => Deployment.callFunction_ok, fun _ _ _ he _ _ => expandWith_accepts he⟩
  intro nested plan p₀ h p hp hr
  have hprepared := prepare_steady hd.steady.evalSteady (.start s₀ d.template.resources) (.of_fresh hfresh)
  rw [hp] at hprepared
  exact (hr.steady hd.steady.evalSteady (fun _ _ => id) hprepared).enforces hd

/-- Parameters that a caller supplies, that have a default, and that may be null, a function between them, and
outputs of their types. -/
def selection : Json := .obj
  [("parameters", .obj
    [("first", .obj [("type", .str "string"), ("allowedValues", .arr [.str "a", .str "b"])]),
     ("chosen", .obj [("type", .str "array"), ("allowedValues", .arr [.str "a", .str "b"]),
       ("defaultValue", .str "[f.pair(parameters('FIRST'))]")]),
     ("size", .obj [("type", .str "int"), ("nullable", .bool true)])]),
   ("functions", .arr
    [.obj [("namespace", .str "f"), ("members", .obj
      [("pair", .obj
        [("parameters", .arr [.obj [("name", .str "x"), ("type", .str "string")]]),
         ("output", .obj [("type", .str "array"),
           ("value", .str "[createArray(parameters('X'), 'b')]")])])])]]),
   ("resources", .arr []),
   ("outputs", .obj
    [("chosen", .obj [("type", .str "array"), ("value", .str "[parameters('chosen')]")]),
     ("size", .obj [("type", .str "int"), ("value", .str "[parameters('size')]")])])]

theorem types_enforced_selection :
    ∃ (t : Template) (d : Deployment) (s₀ : Scope) (e : ExpandedDeployment) (log' : List Diagnostic),
      Template.ofJson selection = .ok t ∧
      outcome (Deployment.create t small.options (.root small.options t.scopeLevel)
        [("First", .str "a")]) { log := [] } = (.ok d, s₀) ∧
      small.expandWith small.refuseNested t (.root small.options t.scopeLevel) [("First", .str "a")] [] =
        (.ok e, log') ∧
      (∃ v, (outcome ((d.host ⟨[], {}, [], [], [], [], []⟩).parameterValue "CHOSEN") {}).1 = .ok v ∧
        ∃ p, d.template.parameter? "CHOSEN" = some p ∧ p.Fits v) ∧
      e.outputs.length = 2 ∧
      ∀ name v, (name, v) ∈ e.outputs → ∃ o ∈ t.outputs, o.name = name ∧ o.Accepts v := by
  have hrun : (Template.ofJson selection).toOption.any (fun t =>
      (outcome (Deployment.create t small.options (.root small.options t.scopeLevel)
          [("First", .str "a")]) { log := [] }).1.toOption.any (fun d =>
        (outcome ((d.host ⟨[], {}, [], [], [], [], []⟩).parameterValue "CHOSEN") {}).1.toOption.isSome) &&
      (small.expandWith small.refuseNested t (.root small.options t.scopeLevel)
        [("First", .str "a")] []).1.toOption.any fun e => e.outputs.length = 2) = true := by
    decide +kernel
  obtain ⟨t, ht, h⟩ := (Option.any_eq_true _ _).mp hrun
  obtain ⟨hd, he⟩ := (Bool.and_eq_true _ _).mp h
  obtain ⟨d, hc, hv⟩ := (Option.any_eq_true _ _).mp hd
  obtain ⟨e, he, hlength⟩ := (Option.any_eq_true _ _).mp he
  obtain ⟨v, hv⟩ := Option.isSome_iff_exists.mp hv
  have hc : _ = (Except.ok d, _) := Prod.ext (toOption_eq_some.mp hc) rfl
  have he : _ = (Except.ok e, _) := Prod.ext (toOption_eq_some.mp he) rfl
  obtain ⟨hgiven, -, -, -, houtputs⟩ := types_enforced (x := small) hc
  have hv := toOption_eq_some.mp hv
  exact ⟨t, d, _, e, _, toOption_eq_some.mp ht, hc, he,
    ⟨v, hv, (hgiven {} (.fresh rfl rfl)).given _ _ _ _ hv⟩, of_decide_eq_true hlength,
    houtputs _ _ _ he⟩

end Expander
end ResourceTemplate
