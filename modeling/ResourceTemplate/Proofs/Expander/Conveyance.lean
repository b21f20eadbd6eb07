import ResourceTemplate.Proofs.Expander.Alike
import ResourceTemplate.Proofs.Expander.Forwarding
import ResourceTemplate.Proofs.Expander.Publication
import ResourceTemplate.Proofs.Expander.Types

namespace ResourceTemplate

namespace Expr

variable {σ : Type} {h : Host σ} {scopes : Scopes} {s t : σ}

/-- Whether an expression goes on from another along a place, by `.name`, `['name']` or `[i]` for each step. -/
inductive Along : Expr → PropertyPath → Expr → Prop
  | here (e : Expr) : Along e [] e
  | key {e f g : Expr} {name : String} {place : PropertyPath} (hs : Selects e name f) (h : Along f place g) :
      Along e (.key name :: place) g
  | index {e g : Expr} {literal : String} {n : Number} {i : Nat} {place : PropertyPath} {span span' : Span}
      (hn : integerValue literal = .ok (.num n)) (hi : n.toInt64? = some (i : Int))
      (h : Along (.index e (.int literal span) span') place g) : Along e (.index i :: place) g

theorem Along.outcome_eval {e f : Expr} {place : PropertyPath} {v w : Json} (hf : Along e place f)
    (he : outcome (eval h scopes e) s = (.ok v, t)) (hv : v.at? place = some w) :
    outcome (eval h scopes f) s = (.ok w, t) := by
  induction hf generalizing v with
  | here e =>
    cases hv
    exact he
  | key hs _ ih =>
    obtain ⟨es, u, rfl, hu, hat⟩ := Json.at?_key.mp hv
    refine ih ?_ hat
    rw [hs.outcome_eval he, propertyOf_obj, Entries.getNamed?_of_get? hu]
  | @index e _ literal n i _ span span' hn hi _ ih =>
    obtain ⟨items, u, rfl, hu, hat⟩ := Json.at?_index.mp hv
    refine ih ?_ hat
    have hitem : elementOf (.arr items) (.num n) = .ok u := by
      change itemAt items n = _
      unfold itemAt
      rw [hi]
      dsimp only
      rw [if_neg (by omega), Int.toNat_natCast, hu]
    change outcome (eval h scopes e >>= fun v => Host.lift (integerValue literal) >>= fun m =>
      Host.lift (elementOf v m)) s = _
    rw [outcome_bind, he, hn]
    change outcome (Host.lift (elementOf (.arr items) (.num n))) t = _
    rw [hitem]
    rfl

end Expr

/-- Whether a resource holds a string at a place: it stands there in the body, and is what every expression gives that
refers to the resource, to all of it or to its properties, and goes on to this place. -/
structure ResourceValue.Holds (r : ResourceValue) (place : PropertyPath) (s : String) : Prop where
  body : (Json.obj r.body).at? place = some (.str s)
  references : ∀ (d : Deployment) (l : Ledger) target, l.find target = .ok (.found r) →
    ∀ depth scopes t u full e f rest, Expr.Refers (d.hostAt l depth) scopes target t u full e →
    Expr.Along e rest f → place = (if full then rest else .key "properties" :: rest) →
    outcome (Expr.eval (d.hostAt l depth) scopes f) t = (.ok (.str s), u)

/-- What stands in the body of a resource is what references give. -/
theorem ResourceValue.holds_of_at? {r : ResourceValue} {place : PropertyPath} {s : String}
    (h : (Json.obj r.body).at? place = some (.str s)) : r.Holds place s where
  body := h
  references d l target hfind depth scopes t u full e f rest he hf hplace := by
    have hview := he.outcome_eval
    rw [Expander.reference_hostAt, Expander.outcome_resolve_found hfind] at hview
    refine hf.outcome_eval hview ?_
    rw [hplace] at h
    cases full with
    | true => exact h
    | false =>
      obtain ⟨properties, hproperties, hat⟩ := Option.bind_eq_some_iff.mp h
      change (r.properties).at? rest = _
      unfold ResourceValue.properties
      rw [hproperties]
      exact hat

namespace Expander

variable {x : Expander} {d : Deployment} {l : Ledger}

theorem checkOutput_of_accepts {pointer : String} {o : OutputDefinition} {v : Json} (h : o.Accepts v) :
    checkOutput pointer o v = .ok () := by
  unfold checkOutput
  cases ho : o.type with
  | none => rfl
  | some type =>
    rcases h type ho with rfl | hv
    · rfl
    · simp [hv]

section
variable {o : OutputDefinition} {name w : String} {v : Json} {s : Scope} (hs : d.Faithful s)
  (hv : d.IsSupplied name v) (hw : Reads w name) (hcopy : o.copy = none) (hvalue : o.value = some (.str w))
include hs hv hw hcopy hvalue

/-- An output that reads a supplied parameter gives nothing but what is supplied. -/
theorem outputIn_supplied {u : Json} (h : outputIn d l o s = some u) : u = v := by
  have hok := toOption_eq_some.mp (Option.join_eq_some_iff.mp h)
  unfold evalOutput at hok
  obtain ⟨b, t, hb, hrest⟩ := outcome_bind_eq_ok.mp (Prod.ext hok rfl)
  have ht := obeys_holds (d.steady_faithful.obeys l).evalObeys ("/outputs/" ++ o.name ++ "/condition") o.condition s
  rw [hb] at ht
  cases b with
  | false => cases hrest
  | true =>
    rw [if_pos rfl] at hrest
    obtain ⟨y, t', hy, hrest⟩ := outcome_bind_eq_ok.mp hrest
    obtain ⟨_, _, -, hrest⟩ := outcome_bind_eq_ok.mp hrest
    cases hrest
    unfold outputValue at hy
    rw [hcopy, hvalue] at hy
    exact Deployment.eval_supplied (ht hs) hv hw l _ hy

theorem isSome_outputIn (hp : (d.template.parameter? name).isSome = true)
    (hrun : s.running (Request.slot ⟨.parameters, name⟩) = false) (hcondition : o.condition = none) (ho : o.Accepts v) :
    (outputIn d l o s).isSome = true := by
  have heval := Deployment.eval_supplied_ok hs hv hw l ("/outputs/" ++ o.name ++ "/value") hp hrun
  have hout : (outcome (outputValue d l ("/outputs/" ++ o.name) o) s).1 = .ok v := by
    unfold outputValue
    rw [hcopy, hvalue]
    exact heval
  unfold outputIn evalOutput
  rw [hcondition, outcome_bind]
  change (outcome (outputValue d l ("/outputs/" ++ o.name) o >>= fun v =>
    ScopeM.lift (checkOutput ("/outputs/" ++ o.name) o v) >>= fun _ => pure (some v)) s).1.toOption.join.isSome = true
  obtain ⟨t, ht⟩ : ∃ t, outcome (outputValue d l ("/outputs/" ++ o.name) o) s = (.ok v, t) := ⟨_, Prod.ext hout rfl⟩
  rw [outcome_bind, ht]
  dsimp only
  rw [checkOutput_of_accepts ho]
  rfl

end

namespace Run

variable {depth : Nat}

/-- A run that gives a deployment conveys a string that it has for a parameter. Every resource that it emits, one with
an inline template with what is nested in it, holds the string wherever a string stands that reads the parameter, at a
place that is neither the expansion's to set nor that of a secret; the resource of a nested deployment holds every output
of it that is a string. An output that reads the parameter has no other value, and has it if it is given on no
condition. -/
structure Conveys (run : Run x depth) (e : ExpandedDeployment) (name s : String) : Prop where
  emission : ∀ n decl r inner, run.history.Begins n decl (.emitted r inner) →
    r ∈ e.resources ∧ Nonempty (Emission run decl r inner) ∧
      (isDeployment decl = true → (takeTemplate decl.body).2.isSome = true → inner.isSome = true)
  property : ∀ decl r inner (E : Emission run decl r inner) pointer w key place, Reads w name →
    E.StandsAt pointer w (.key key :: place) → Spares decl inner key place →
    x.secrets.registers r.identity.type (.key key :: place) = false → r.Holds (.key key :: place) s
  shown : ∀ decl r inner, Emission run decl r (some inner) → ∀ o u, inner.outputs.get? o = some (.str u) →
    x.secrets.registers r.identity.type [.key "properties", .key "outputs", .key o, .key "value"] = false →
    r.Holds [.key "properties", .key "outputs", .key o, .key "value"] u
  output : ∀ o ∈ run.deployment.template.outputs, ∀ w, Reads w name → o.copy = none → o.value = some (.str w) →
    (∀ o' ∈ run.deployment.template.outputs, o'.name = o.name → o' = o) →
    (∀ v, e.outputs.get? o.name = some v → v = .str s) ∧
      ((run.deployment.template.parameter? name).isSome = true → o.condition = none → o.Accepts (.str s) →
        e.outputs.get? o.name = some (.str s))

variable {run : Run x depth} {e : ExpandedDeployment} {identity : DeploymentIdentity} {values : Entries Json}
  {name s : String}

/-- What is supplied to a run without secure parameters is conveyed. -/
theorem IsOf.conveys (h : run.IsOf identity values e) (hs : Supplies values name (.str s))
    (hplain : ∀ p ∈ run.deployment.template.parameters, p.type.isSecure = false) : run.Conveys e name s where
  emission n decl r inner hb := by
    obtain ⟨E⟩ := run.exists_emission hb
    exact ⟨h.mem_resources hb, ⟨E⟩, E.isSome_inner⟩
  property decl r inner E pointer w key place hw hat hspares hr := by
    have hbody := Deployment.StandsAt.at? (h.isSupplied hs) hw hat (E.faithful h.faithful).1 E.evaluates
    exact ResourceValue.holds_of_at? (E.at?_resource h.faithful hplain hspares.reserved hspares.name hspares.type hr
      (E.at?_full hspares hbody))
  shown decl r inner E o u hu hr := ResourceValue.holds_of_at?
    (E.at?_resource h.faithful hplain (by decide) (by decide) (by decide) hr (E.at?_outputs hu))
  output o ho w hw hcopy hvalue hone := by
    obtain ⟨outputs, p, hp, rfl⟩ := h.gives
    have hsupplied := h.isSupplied hs
    have hfinal := run.leads run.reached
    have hall : ∀ v, outputs.get? o.name = some v → v = .str s := by
      intro v hv
      rcases evalOutputs_get? hp hv with hnil | ⟨o', ho', hname, u, hu, hgives⟩
      · cases hnil
      · cases hone o' ho' hname
        exact outputIn_supplied (hu.faithful (hfinal.faithful h.faithful)) hsupplied hw hcopy hvalue hgives
    refine ⟨hall, fun hdeclared hcondition haccepts => ?_⟩
    have hsome := isSome_evalOutputs hp (.inr ⟨o, ho, rfl, fun u hu =>
      isSome_outputIn (hu.faithful (hfinal.faithful h.faithful)) hsupplied hw hcopy hvalue hdeclared
        (Deployment.LeadsTo.not_running (run.deployment.steady_leadsTo.trans _ _ _ hfinal hu) h.fresh.1 name) hcondition
        haccepts⟩)
    obtain ⟨v, hv⟩ := Option.isSome_iff_exists.mp hsome
    exact hall v hv ▸ hv

end Run

/-- Values are evaluated once. An expansion is the run of the deployment that is made for it. A string that its caller
supplies for a parameter is conveyed as it is, whatever it looks like, by this run and by that of every deployment to
which a chain of deployments hands the parameter on; what is emitted there is among the resources of the expansion, and
a chain goes on wherever an emitted resource hands the parameter on. The expansion is the same for every other way to
read strings that reads those of its templates alike, so that nothing that evaluation gives is read again. -/
theorem expand_conveys {v : Json} {t : Template} {values : Entries Json} {log : List Diagnostic}
    {e : ExpandedDeployment} {name s : String} (ht : Template.ofJson v = .ok t)
    (h : x.expand t values = (.ok e, log)) (hs : Supplies values name (.str s)) :
    (∃ run : Run x x.options.maxDepth, run.deployment.template = t ∧
      run.IsOf (.root x.options t.scopeLevel) values e ∧
      (∀ leafDepth (leaf : Run x leafDepth) gives leafName, Forwards x run e name leaf gives leafName →
        gives.resources ⊆ e.resources ∧
          ((∀ p ∈ leaf.deployment.template.parameters, p.type.isSecure = false) → leaf.Conveys gives leafName s)) ∧
      ∀ leafDepth (leaf : Run x (leafDepth + 1)) gives leafName, Forwards x run e name leaf gives leafName →
        ∀ n decl r inner, leaf.history.Begins n decl (.emitted r (some inner)) →
        ∀ (E : Emission leaf decl r (some inner)) childName, E.Hands leafName childName →
          ∃ child : Run x leafDepth, E.Deploys child ∧ Forwards x run e name child inner childName) ∧
    ∀ R : Reading, (∀ t', Relation.ReflTransGen x.ComesTo t t' → t'.ReadBy R) →
      @expand R x t values = (.ok e, log) := by
  constructor
  · obtain ⟨run, htemplate, hof⟩ := exists_isOf ht h
    refine ⟨run, htemplate, hof, fun leafDepth leaf gives leafName hchain => ?_,
      fun leafDepth leaf gives leafName hchain n decl r inner hb E childName hands => ?_⟩
    · obtain ⟨leafIdentity, leafValues, hleaf, hsupplies, hsubset⟩ := hchain.isOf hof hs
      exact ⟨hsubset, hleaf.conveys hsupplies⟩
    · obtain ⟨child, hchild⟩ := E.exists_deploys
      exact ⟨child, hchild, hchain.trans (.nested hb E hands hchild (.here child inner childName))⟩
  · intro R hR
    exact (expandAt_readBy hR _ values []).trans h

/-- A template that reads its parameter for the note of a resource and for an output. -/
def noting : Json := .obj
  [("parameters", .obj [("q", .obj [("type", .str "string")])]),
   ("resources", .arr [.obj [("type", .str "A/b"), ("apiVersion", .str "1"), ("name", .str "x"),
     ("properties", .obj [("note", .str "[parameters('q')]")])]]),
   ("outputs", .obj [("o", .obj [("type", .str "string"), ("value", .str "[parameters('q')]")])])]

def relaying (template : Json) : Json := .obj
  [("parameters", .obj [("p", .obj [("type", .str "string")])]),
   ("resources", .arr [.obj [("type", .str "Microsoft.Resources/deployments"), ("apiVersion", .str "1"),
     ("name", .str "inner"), ("properties", .obj
       [("parameters", .obj [("q", .obj [("value", .str "[parameters('p')]")])]), ("template", template)])]])]

/-- Whether a template has no secure parameters, and reads `q` for the notes of its resources and for its only output,
which is a string. -/
def notes (t : Template) : Bool :=
  (t.parameters.all fun p => !p.type.isSecure) && (t.parameter? "q").isSome &&
    (t.resources.all fun decl => !isDeployment decl &&
      (Value.plainAt? [.key "properties", .key "note"] (.obj decl.ownMembers)).bind Json.str? ==
        some "[parameters('q')]") &&
    match t.outputs with
    | [o] => o.name == "o" && o.copy.isNone && o.condition.isNone &&
        o.value.bind Json.str? == some "[parameters('q')]" && o.type == some .string
    | _ => false

/-- Whether a template has no secure parameters, and all its resources hand `p` on to a template that notes it. -/
def relays (t : Template) : Bool :=
  (t.parameters.all fun p => !p.type.isSecure) &&
    t.resources.all fun decl => isDeployment decl && decl.gives "q" "[parameters('p')]" &&
      (takeTemplate decl.body).2.any fun template => (Template.ofJson template).toOption.any notes

theorem plain_of_notes {t : Template} (h : notes t = true) : ∀ p ∈ t.parameters, p.type.isSecure = false := by
  simp only [notes, Bool.and_eq_true, List.all_eq_true, Bool.not_eq_true'] at h
  exact h.1.1.1

theorem reads_q : Reads "[parameters('q')]" "q" := by decide +kernel

theorem reads_p : Reads "[parameters('p')]" "p" := by decide +kernel

namespace Run

variable {depth : Nat} {run : Run small depth} {e : ExpandedDeployment} {identity : DeploymentIdentity}
  {values : Entries Json} {s : String}

/-- A template that notes its parameter gives resources with the note. -/
theorem Conveys.holds_note (h : run.Conveys e "q" s) (hof : run.IsOf identity values e)
    (ht : notes run.deployment.template = true) {i : Nat} {r : ResourceValue} (hi : e.resources[i]? = some r) :
    r.Holds [.key "properties", .key "note"] s := by
  simp only [notes, Bool.and_eq_true, List.all_eq_true, Bool.not_eq_true', beq_iff_eq, Json.bind_str?_eq_some] at ht
  rcases hof.own_or_inner hi with ⟨decl, inner, hb⟩ | ⟨n, k, decl, r', inner, -, hb, -⟩
  · obtain ⟨-, ⟨E⟩, -⟩ := h.emission _ _ _ _ hb
    obtain ⟨hdeployment, hnote⟩ := ht.1.2 decl (run.demands hb).declared
    refine h.property _ _ _ E _ _ _ _ reads_q (.of_plainAt? hnote) ⟨by decide, by decide, by decide, fun hd => ?_⟩ rfl
    rw [hdeployment] at hd
    cases hd
  · -- what is no deployment nests none
    obtain ⟨-, ⟨E⟩, -⟩ := h.emission _ _ _ _ hb
    obtain ⟨hdeployment, -⟩ := ht.1.2 decl (run.demands hb).declared
    rcases E.completed with ⟨hnone, -⟩ | ⟨_, -, hd, -⟩
    · cases hnone
    · rw [hdeployment] at hd
      cases hd

theorem Conveys.output_note (h : run.Conveys e "q" s) (ht : notes run.deployment.template = true) :
    e.outputs.get? "o" = some (.str s) := by
  simp only [notes, Bool.and_eq_true] at ht
  obtain ⟨⟨⟨-, hdeclared⟩, -⟩, ho⟩ := ht
  split at ho
  · rename_i o hone
    simp only [Bool.and_eq_true, beq_iff_eq, Json.bind_str?_eq_some, Option.isNone_iff_eq_none] at ho
    obtain ⟨⟨⟨⟨hname, hcopy⟩, hcondition⟩, hvalue⟩, htype⟩ := ho
    obtain ⟨-, hgives⟩ := h.output o (by simp [hone]) _ reads_q hcopy hvalue (by simp [hone])
    refine hname ▸ hgives hdeclared hcondition fun type hty => ?_
    rw [htype] at hty
    cases hty
    exact .inr rfl
  · cases ho

end Run

/-- A text that looks like an expression comes through two templates as it is. -/
theorem expand_conveys_relayed :
    ∃ t e log, Template.ofJson (relaying noting) = .ok t ∧
      small.expand t [("p", .str "[concat('a')]")] = (.ok e, log) ∧
      Supplies [("p", .str "[concat('a')]")] "p" (.str "[concat('a')]") ∧ ∃ r ∈ e.resources, ∃ r' ∈ e.resources,
        r.Holds [.key "properties", .key "outputs", .key "o", .key "value"] "[concat('a')]" ∧
        r'.Holds [.key "properties", .key "note"] "[concat('a')]" := by
  have hc : (Template.ofJson (relaying noting)).toOption.any fun t => relays t &&
      (small.expand t [("p", .str "[concat('a')]")]).1.toOption.any fun e => e.resources[1]?.any fun r =>
        ((Json.obj r.body).at? [.key "properties", .key "parameters", .key "q", .key "value"]).isNone := by
    decide +kernel
  obtain ⟨t, ht, hc⟩ := (Option.any_eq_true _ _).mp hc
  rw [Bool.and_eq_true] at hc
  obtain ⟨hrelays, hc⟩ := hc
  obtain ⟨e, he, hc⟩ := (Option.any_eq_true _ _).mp hc
  obtain ⟨r', hr', hother⟩ := (Option.any_eq_true _ _).mp hc
  rw [toOption_eq_some] at ht he
  obtain ⟨log, he⟩ : ∃ log, small.expand t [("p", .str "[concat('a')]")] = (.ok e, log) := ⟨_, Prod.ext he rfl⟩
  have hs : Supplies [("p", .str "[concat('a')]")] "p" (.str "[concat('a')]") :=
    ⟨⟨_, List.mem_singleton_self _, Name.same_self _⟩, by simp⟩
  obtain ⟨⟨run, rfl, hof, hconveys, honward⟩, -⟩ := expand_conveys ht he hs
  simp only [relays, Bool.and_eq_true, List.all_eq_true, Bool.not_eq_true'] at hrelays
  obtain ⟨hplain, hrelays⟩ := hrelays
  have hroot := (hconveys _ run e "p" (.here run e "p")).2 hplain
  refine ⟨_, e, _, ht, he, hs, ?_⟩
  rcases hof.own_or_inner hr' with ⟨decl, inner, hb⟩ | ⟨n, k, decl, r, inner, -, hb, hk⟩
  · -- a deployment of the template would hold the text among its parameters
    obtain ⟨⟨-, hgives⟩, -⟩ := hrelays decl (run.demands hb).declared
    obtain ⟨-, ⟨E⟩, -⟩ := hroot.emission _ _ _ _ hb
    have hat := (hroot.property _ _ _ E _ _ _ _ reads_p (.of_plainAt? (decl.plainAt?_of_gives hgives))
      ⟨by decide, by decide, by decide, fun _ _ => ⟨_, _, rfl, fun _ => by decide, fun _ => by decide⟩⟩ rfl).body
    rw [hat] at hother
    cases hother
  · obtain ⟨⟨-, hgives⟩, htemplate⟩ := hrelays decl (run.demands hb).declared
    obtain ⟨template, htake, htemplate⟩ := (Option.any_eq_true _ _).mp htemplate
    obtain ⟨t', ht', hnotes⟩ := (Option.any_eq_true _ _).mp htemplate
    obtain ⟨hr, ⟨E⟩, -⟩ := hroot.emission _ _ _ _ hb
    obtain ⟨child, hchild, hchain⟩ := honward _ run e "p" (.here run e "p") _ _ _ _ hb E "q" (.of_gives E reads_p hgives)
    obtain ⟨v, hv, hread⟩ := hchild.template
    rw [htake] at hv
    cases hv
    cases hread.symm.trans (toOption_eq_some.mp ht')
    have hleaf := (hconveys _ child inner "q" hchain).2 (plain_of_notes hnotes)
    exact ⟨r, hr, r', List.mem_of_getElem? hr', hroot.shown _ _ _ E _ _ (hleaf.output_note hnotes) rfl,
      hleaf.holds_note hchild.isOf hnotes hk⟩

/-- A deployment resource that reads a parameter for a property that the expansion sets. -/
def overwritten : Json := .obj
  [("parameters", .obj [("p", .obj [("type", .str "string")])]),
   ("resources", .arr [.obj [("type", .str "Microsoft.Resources/deployments"), ("apiVersion", .str "1"),
     ("name", .str "inner"), ("properties", .obj
       [("outputs", .str "[parameters('p')]"), ("template", .obj [("resources", .arr [])])])]])]

/-- The outputs of what is nested take the place of a property that reads the parameter, although it is none of the
registered secrets. -/
theorem outputs_not_conveyed :
    ∃ t e log, Template.ofJson overwritten = .ok t ∧ small.expand t [("p", .str "a")] = (.ok e, log) ∧
      (∀ p ∈ t.parameters, p.type.isSecure = false) ∧
      (∀ decl ∈ t.resources, Value.plainAt? [.key "properties", .key "outputs"] (.obj decl.ownMembers) =
        some (.str "[parameters('p')]")) ∧ e.resources.length = 1 ∧
      ∀ r ∈ e.resources, small.secrets.registers r.identity.type [.key "properties", .key "outputs"] = false ∧
        ¬(Json.obj r.body).at? [.key "properties", .key "outputs"] = some (.str "a") := by
  have hc : (Template.ofJson overwritten).toOption.any fun t =>
      (t.parameters.all fun p => !p.type.isSecure) &&
        (t.resources.all fun decl => (Value.plainAt? [.key "properties", .key "outputs"]
          (.obj decl.ownMembers)).bind Json.str? == some "[parameters('p')]") &&
        (small.expand t [("p", .str "a")]).1.toOption.any fun e => e.resources.length == 1 &&
          e.resources.all fun r =>
            ((Json.obj r.body).at? [.key "properties", .key "outputs"]).bind Json.str? != some "a" := by
    decide +kernel
  obtain ⟨t, ht, hc⟩ := (Option.any_eq_true _ _).mp hc
  simp only [Bool.and_eq_true, List.all_eq_true, Bool.not_eq_true', beq_iff_eq, Json.bind_str?_eq_some] at hc
  obtain ⟨⟨hplain, hreads⟩, hc⟩ := hc
  obtain ⟨e, he, hc⟩ := (Option.any_eq_true _ _).mp hc
  simp only [Bool.and_eq_true, List.all_eq_true, beq_iff_eq, bne_iff_ne, ne_eq, Json.bind_str?_eq_some] at hc
  rw [toOption_eq_some] at ht he
  exact ⟨t, e, _, ht, Prod.ext he rfl, hplain, hreads, hc.1, fun r hr => ⟨rfl, hc.2 r hr⟩⟩

end Expander
end ResourceTemplate
