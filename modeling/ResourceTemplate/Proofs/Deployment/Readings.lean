import ResourceTemplate.Expander.Instance
import ResourceTemplate.Proofs.Calls
import ResourceTemplate.Proofs.Deployment.Hosts

namespace ResourceTemplate

/-! What is evaluated. -/

def ResourceDeclaration.evaluated (decl : ResourceDeclaration) : List Json :=
  -- an inline template is none of them: its expressions are its own
  .obj (if Expander.isDeployment decl then Expander.takeTemplate decl.body else (decl.body, none)).1 ::
    .obj (Deployment.identityMembers decl) ::
      ((decl.copy.map CopyLoop.count).toList ++ decl.condition.toList ++ decl.dependsOn)

def OutputDefinition.evaluated (o : OutputDefinition) : List Json :=
  o.value.toList ++ o.condition.toList ++ (o.copy.map OutputCopy.count).toList ++ (o.copy.map OutputCopy.input).toList

namespace Template

/-- The values of a template that are evaluated, but for those of its functions. -/
def evaluated (t : Template) : List Json :=
  t.parameters.filterMap ParameterDefinition.default ++ t.vars.map Prod.snd ++
    t.resources.flatMap ResourceDeclaration.evaluated ++ t.outputs.flatMap OutputDefinition.evaluated

/-- Whether nothing that is evaluated reaches the function that shows the template as it was given. -/
def Unquoted (t : Template) : Prop := ∀ v ∈ t.evaluated, t.Avoids ["deployment"] v.calls

section
variable {t : Template} {v : Json}

theorem mem_evaluated_of_default {p : ParameterDefinition} (hp : p ∈ t.parameters) (hv : p.default = some v) :
    v ∈ t.evaluated := by
  refine List.mem_append_left _ (List.mem_append_left _ (List.mem_append_left _ ?_))
  exact List.mem_filterMap.mpr ⟨p, hp, hv⟩

theorem mem_evaluated_of_variable {e : String × Json} (he : e ∈ t.vars) : e.2 ∈ t.evaluated :=
  List.mem_append_left _ (List.mem_append_left _ (List.mem_append_right _ (List.mem_map_of_mem he)))

theorem mem_evaluated_of_resource {decl : ResourceDeclaration} (hd : decl ∈ t.resources) (hv : v ∈ decl.evaluated) :
    v ∈ t.evaluated :=
  List.mem_append_left _ (List.mem_append_right _ (List.mem_flatMap.mpr ⟨decl, hd, hv⟩))

theorem mem_evaluated_of_output {o : OutputDefinition} (ho : o ∈ t.outputs) (hv : v ∈ o.evaluated) :
    v ∈ t.evaluated :=
  List.mem_append_right _ (List.mem_flatMap.mpr ⟨o, ho, hv⟩)

end

def withRaw (t : Template) (raw : Json) : Template := { t with raw }

end Template

/-- The deployment as if its template had been given otherwise. -/
def Deployment.withRaw (d : Deployment) (raw : Json) : Deployment := { d with template := d.template.withRaw raw }

namespace Deployment

variable {d : Deployment} {raw : Json} {l : Ledger}

section
variable {call call' : String → String → List Json → EvalM Scope Json}
  (hc : ∀ ns name, (d.template.avoiding ["deployment"]).defined ns name → ∀ arguments,
    call ns name arguments = call' ns name arguments)
include hc

/-- The bodies of functions see the same but for the template as it was given. -/
theorem bodyHost_withRaw (raw : Json) (f : UserFunction) (bound : Entries Json) :
    HostsAgree (Accord.same ExprError Scope) (d.template.avoiding ["deployment"])
      (f.bodyHost d call bound) (f.bodyHost (d.withRaw raw) call' bound) where
  parameterValue _ := rfl
  variableValue _ := rfl
  copyIndex _ := rfl
  reference _ _ _ := rfl
  resourceInfo _ _ := rfl
  userFunction := hc
  deployment hd := absurd (List.mem_singleton.mpr rfl) hd
  newGuid _ := rfl
  remark _ := rfl
  read hf := congrArg Host.read (funext fun s => hf _ _ s s rfl)

theorem applyFunction_withRaw (raw : Json) {ns name : String}
    (hn : (d.template.avoiding ["deployment"]).defined ns name) (arguments : List Json) :
    d.applyFunction call ns name arguments = (d.withRaw raw).applyFunction call' ns name arguments := by
  have hfunction : (d.withRaw raw).template.function? ns name = d.template.function? ns name := rfl
  unfold applyFunction
  rw [hfunction]
  cases hf : d.template.function? ns name with
  | none => rfl
  | some f =>
    have hbody (bound : Entries Json) :
        evalValue (f.bodyHost d call bound) f.output = evalValue (f.bodyHost (d.withRaw raw) call' bound) f.output :=
      agree_evalValue Accord.same_encloses.inside (bodyHost_withRaw hc raw f bound) f.output (hn f hf).cover
    simp only [hbody]

end

theorem callFunction_withRaw (raw : Json) (depth : Nat) {ns name : String}
    (hn : (d.template.avoiding ["deployment"]).defined ns name) (arguments : List Json) :
    d.callFunction depth ns name arguments = (d.withRaw raw).callFunction depth ns name arguments := by
  induction depth generalizing ns name arguments with
  | zero => rfl
  | succ depth ih => exact applyFunction_withRaw (fun _ _ => ih) raw hn arguments

theorem request_withRaw (raw : Json) (E : Evaluations) (x : Request) :
    (d.withRaw raw).request E x = d.request E x := by
  obtain ⟨table, name⟩ := x
  cases table <;> rfl

/-- Requests are answered alike where what is computed for them is. -/
theorem request_congr {E F : Evaluations} {x : Request} (h : E.answer (d.origin x) = F.answer (d.origin x)) :
    d.request E x = d.request F x := by
  funext s
  change outcome (d.request E x) s = outcome (d.request F x) s
  cases hslot : s.slot? x.slot with
  | none => rw [request_free hslot, request_free hslot, h]
  | some slot =>
    cases slot with
    | inProgress =>
      have hr := Scope.running_iff.mpr hslot
      rw [request_running hr, request_running hr]
    | evaluated v => rw [request_evaluated hslot, request_evaluated hslot]

theorem hostBy_withRaw (raw : Json) {f g : Request → EvalM Scope Json} (hfg : ∀ x, f x = g x) :
    HostsAgree (Accord.same ExprError Scope) (d.template.avoiding ["deployment"])
      (d.hostBy l d.callDepth f) ((d.withRaw raw).hostBy l d.callDepth g) where
  parameterValue name := hfg ⟨.parameters, name⟩
  variableValue name := hfg ⟨.vars, name⟩
  copyIndex _ := rfl
  reference _ _ _ := rfl
  resourceInfo _ _ := rfl
  userFunction _ _ hn arguments := callFunction_withRaw raw d.callDepth hn arguments
  deployment hd := absurd (List.mem_singleton.mpr rfl) hd
  newGuid _ := rfl
  remark _ := rfl
  read hf := congrArg Host.read (funext fun s => hf _ _ s s rfl)

variable (h : d.template.Unquoted)
include h

theorem cover_origin_unquoted (x : Request) : (d.origin x).Cover (d.template.avoiding ["deployment"]) :=
  cover_origin (fun _ he => (h _ (Template.mem_evaluated_of_variable he)).cover)
    (fun _ hp _ hv => (h _ (Template.mem_evaluated_of_default hp hv)).cover) x

/-- A deployment whose values do not reach `deployment()` has the same host as with any other text. -/
theorem hostAt_withRaw (raw : Json) (l : Ledger) (depth : Nat) :
    HostsAgree (Accord.same ExprError Scope) (d.template.avoiding ["deployment"]) (d.hostAt l depth)
      ((d.withRaw raw).hostAt l depth) := by
  induction depth with
  | zero =>
    rw [hostAt_eq, hostAt_eq]
    exact hostBy_withRaw raw fun _ => rfl
  | succ depth ih =>
    rw [hostAt_eq, hostAt_eq] at ih ⊢
    refine hostBy_withRaw raw fun x => ?_
    rw [request_withRaw]
    exact request_congr ((evaluations_agree Accord.same_encloses ih).answer Accord.same_encloses
      (.refl (fun _ => rfl) _) (cover_origin_unquoted h x) fun _ => definite_origin)

section
variable {v : Json} (hv : v ∈ d.template.evaluated)
include hv

theorem eval_withRaw (raw : Json) (l : Ledger) (pointer : String) :
    (d.withRaw raw).eval l pointer v = d.eval l pointer v :=
  (Value.agree_eval Accord.same_encloses.toSurrounds (Value.onHost_agree Accord.same_encloses.toSurrounds
    (hostAt_withRaw h raw l (d.slotCount + 1))) rfl v
      (Callees.cover_calls.mp (h v hv).cover)).symm

end

theorem evalObject_withRaw {members : Entries Json} (hm : .obj members ∈ d.template.evaluated) (raw : Json)
    (l : Ledger) (pointer : String) :
    (d.withRaw raw).evalObject l pointer members = d.evalObject l pointer members :=
  (Value.agree_evalMembers Accord.same_encloses.toSurrounds (Value.onHost_agree Accord.same_encloses.toSurrounds
    (hostAt_withRaw h raw l (d.slotCount + 1))) rfl [] members
      (Callees.cover_calls.mp (h _ hm).cover)).symm

end Deployment
end ResourceTemplate

/-!
What evaluation reads. The text of a template is shown by `deployment()` alone. Of all strings, those alone are read as
expressions that are written in the template: in the values that it evaluates and in the bodies of its functions. So
what a template holds is evaluated alike with another text of it, and with another reading of strings that reads these
alike, whatever that reading makes of the strings that evaluation comes to.
-/

namespace ResourceTemplate

/-- Whether what a template holds is evaluated alike with another text of the template and another reading of
strings. -/
structure Deployment.Alike (R : Reading) (d : Deployment) (raw : Json) : Prop where
  eval {v : Json} (hv : v ∈ d.template.evaluated) (l : Ledger) (pointer : String) :
    @eval R (d.withRaw raw) l pointer v = @eval .standard d l pointer v
  evalObject {members : Entries Json} (hm : .obj members ∈ d.template.evaluated) (l : Ledger) (pointer : String) :
    @evalObject R (d.withRaw raw) l pointer members = @evalObject .standard d l pointer members

namespace Deployment.Alike

variable {R : Reading} {d : Deployment} {raw : Json} (h : d.Alike R raw)
include h

theorem evalCount {v : Json} (hv : v ∈ d.template.evaluated) (l : Ledger) (pointer : String) :
    @Deployment.evalCount R (d.withRaw raw) l pointer v = @Deployment.evalCount .standard d l pointer v := by
  have he := h.eval hv l pointer
  unfold Deployment.evalCount Value.evalCount
  unfold Deployment.eval evalOn at he
  rw [he]
  rfl

variable {decl : ResourceDeclaration} (hd : decl ∈ d.template.resources)
include hd

theorem previewIdentity (l : Ledger) :
    @Deployment.previewIdentity R (d.withRaw raw) l decl = @Deployment.previewIdentity .standard d l decl := by
  have hv : .obj (identityMembers decl) ∈ d.template.evaluated :=
    Template.mem_evaluated_of_resource hd (by simp [ResourceDeclaration.evaluated])
  unfold Deployment.previewIdentity
  rw [h.evalObject hv]
  rfl

theorem evalCopyCount {copy : CopyLoop} (hc : decl.copy = some copy) (l : Ledger) (pointer : String) :
    @Deployment.evalCount R (d.withRaw raw) l pointer copy.count = @Deployment.evalCount .standard d l pointer copy.count :=
  h.evalCount (Template.mem_evaluated_of_resource hd (by simp [ResourceDeclaration.evaluated, hc])) l _

theorem previewIdentities (l : Ledger) :
    @Deployment.previewIdentities R (d.withRaw raw) l decl = @Deployment.previewIdentities .standard d l decl := by
  unfold Deployment.previewIdentities
  rw [h.previewIdentity hd]
  cases hc : decl.copy with
  | none => rfl
  | some copy =>
    dsimp only
    rw [h.evalCopyCount hd hc]

end Deployment.Alike

/-- A deployment that does not show its template as it was given evaluates alike with any other text of it. -/
theorem Deployment.alike_of_unquoted {d : Deployment} (h : d.template.Unquoted) (raw : Json) :
    d.Alike .standard raw where
  eval hv l pointer := eval_withRaw h hv raw l pointer
  evalObject hm l pointer := evalObject_withRaw h hm raw l pointer

/-! Readings. -/

def Template.texts (t : Template) : List String :=
  t.evaluated.flatMap Json.texts ++ t.functions.flatMap fun f => f.output.texts

/-- Whether another reading reads the strings of a template as they are read. -/
def Template.ReadBy (t : Template) (R : Reading) : Prop := ∀ s ∈ t.texts, R.parse s = TemplateString.parse s

theorem TemplateString.eval_read {R : Reading} {s : String} (h : R.parse s = TemplateString.parse s) {σ : Type}
    (host : Host σ) : @TemplateString.eval R σ host s = @TemplateString.eval .standard σ host s := by
  unfold TemplateString.eval
  rw [h]
  rfl

namespace Template.ReadBy

variable {t : Template} {R : Reading} (h : t.ReadBy R) {v : Json}
include h

theorem evaluated (hv : v ∈ t.evaluated) : ∀ s ∈ v.texts, R.parse s = TemplateString.parse s := fun s hs =>
  h s (List.mem_append_left _ (List.mem_flatMap.mpr ⟨v, hv, hs⟩))

theorem function {f : UserFunction} (hf : f ∈ t.functions) :
    ∀ s ∈ f.output.texts, R.parse s = TemplateString.parse s := fun s hs =>
  h s (List.mem_append_right _ (List.mem_flatMap.mpr ⟨f, hf, hs⟩))

end Template.ReadBy

/-- Strings on a host are evaluated alike by readings that read them alike. -/
theorem Value.onHost_read {R : Reading} (host : Host Scope) : Strings.Agree (Accord.same ExpandError Scope) Eq
    (fun s => R.parse s = TemplateString.parse s) (@onHost R host) (@onHost .standard host) := by
  rintro p _ rfl s hs
  exact .ite (congrArg _ (TemplateString.eval_read hs host)) (.pure _)

namespace Deployment

variable {d : Deployment} {R : Reading} (h : d.template.ReadBy R)
include h

theorem callFunction_read (depth : Nat) (ns name : String) (arguments : List Json) :
    @callFunction R d depth ns name arguments = @callFunction .standard d depth ns name arguments := by
  induction depth generalizing ns name arguments with
  | zero => rfl
  | succ depth ih =>
    have hcall : @callFunction R d depth = @callFunction .standard d depth :=
      funext fun ns => funext fun name => funext (ih ns name)
    unfold callFunction applyFunction
    rw [hcall]
    cases hf : d.template.function? ns name with
    | none => rfl
    | some f =>
      have hbody (host : Host Scope) :
          @evalValue R Scope host f.output = @evalValue .standard Scope host f.output :=
        agree_evalValue_of (A := .same ExprError Scope) f.output fun s hs =>
          TemplateString.eval_read (h.function (List.mem_of_find?_eq_some hf) s hs) host
      simp only [hbody]

/-- Requests are answered alike, whatever else a reading reads otherwise. -/
theorem request_read (host : Host Scope) (x : Request) :
    d.request ⟨@evalOn R d host, Value.evalCopy d.options.maxCopyCount (@Value.onHost R host)⟩ x =
      d.request (d.evaluations host) x := by
  have hs := Value.onHost_read (R := R) host
  have hE : Evaluations.Agree (Accord.same ExpandError Scope) Eq (fun s => R.parse s = TemplateString.parse s)
      ⟨@evalOn R d host, Value.evalCopy d.options.maxCopyCount (@Value.onHost R host)⟩ (d.evaluations host) :=
    ⟨fun hpq v hv => Value.agree_eval Accord.same_encloses.toSurrounds hs hpq v hv,
      fun hpq v hv => Value.agree_evalCopy Accord.same_encloses.toSurrounds hs hpq v hv⟩
  refine request_congr (hE.answer Accord.same_encloses (.refl (fun _ => rfl) _) ?_ fun _ => definite_origin)
  exact texts_origin (fun _ he => h.evaluated (Template.mem_evaluated_of_variable he))
    (fun _ hp _ hv => h.evaluated (Template.mem_evaluated_of_default hp hv)) x

theorem hostAt_read (l : Ledger) (depth : Nat) : @hostAt R d l depth = @hostAt .standard d l depth := by
  have hwith (f g : String → EvalM Scope Json) : @hostWith R d l f g = @hostWith .standard d l f g := by
    unfold hostWith
    rw [show @callFunction R d d.callDepth = @callFunction .standard d d.callDepth from
      funext fun ns => funext fun name => funext (callFunction_read h d.callDepth ns name)]
  induction depth with
  | zero => exact hwith _ _
  | succ depth ih =>
    have hrequest := request_read h (@hostAt .standard d l depth)
    unfold hostAt
    rw [hwith, ih]
    exact congrArg₂ (@hostWith .standard d l) (funext fun name => hrequest ⟨.parameters, name⟩)
      (funext fun name => hrequest ⟨.vars, name⟩)

/-- What a template holds is evaluated alike by every reading that reads the strings of the template alike. -/
theorem alike_of_readBy : d.Alike R d.template.raw where
  eval {v} hv l pointer := by
    change @Value.eval d.options.maxCopyCount (@Value.onHost R (@hostAt R d l (d.slotCount + 1))) pointer v = _
    rw [hostAt_read h]
    exact Value.agree_eval Accord.same_encloses.toSurrounds (Value.onHost_read _) rfl v (h.evaluated hv)
  evalObject {members} hm l pointer := by
    change @Value.evalMembers d.options.maxCopyCount (@Value.onHost R (@hostAt R d l (d.slotCount + 1))) pointer []
      members = _
    rw [hostAt_read h]
    exact Value.agree_evalMembers Accord.same_encloses.toSurrounds (Value.onHost_read _) rfl [] members
      (h.evaluated hm)

end Deployment
end ResourceTemplate
