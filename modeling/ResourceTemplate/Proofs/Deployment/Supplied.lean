import ResourceTemplate.Proofs.Deployment.Hosts
import ResourceTemplate.Proofs.Deployment.Strings
import ResourceTemplate.Proofs.Outcome

namespace ResourceTemplate

/-- Whether values of a caller give a value for a name, and no other under any spelling of it. -/
structure Supplies (values : Entries Json) (name : String) (v : Json) : Prop where
  there : ∃ e ∈ values, Name.same e.1 name = true
  only : ∀ e ∈ values, Name.same e.1 name = true → e.2 = v

/-- Whether a string of a template reads a parameter: it is `[parameters('name')]`, blanks and case apart. -/
def Reads (w name : String) : Prop :=
  ∃ f span, TemplateString.parse w = .ok (.expression (.call none f [.str name] span)) ∧
    Name.same f "parameters" = true

def readParameter? (w : String) : Option String :=
  match TemplateString.parse w with
  | .ok (.expression (.call none f [.str name] _)) => if Name.same f "parameters" then some name else none
  | _ => none

theorem readParameter?_eq_some {w name : String} : readParameter? w = some name ↔ Reads w name := by
  unfold readParameter?
  constructor
  · intro h
    split at h
    · rename_i f name' span hp
      split at h
      · rename_i hf
        cases h
        exact ⟨f, span, hp, hf⟩
      · cases h
    · cases h
  · rintro ⟨f, span, hp, hf⟩
    rw [hp]
    dsimp only
    rw [if_pos hf]

instance (w name : String) : Decidable (Reads w name) := decidable_of_iff _ readParameter?_eq_some

theorem Catalog.lookup?_parameters {σ : Type} {f : String} (hf : Name.same f "parameters" = true) :
    lookup? σ f = some (.asking Surroundings.parameterNamed) :=
  (lookup?_congr hf).trans rfl

namespace Reads

variable {w name : String} (h : Reads w name)
include h

theorem outcome_eval {σ : Type} (host : Host σ) (s : σ) :
    outcome (TemplateString.eval host w) s = outcome (host.parameterValue name) s := by
  obtain ⟨f, span, hp, hf⟩ := h
  have harg : outcome (Expr.eval host [] (.str name)) s = (.ok (.str name), s) := rfl
  rw [TemplateString.eval_eq, hp]
  exact Expr.outcome_call_asking (Catalog.lookup?_parameters hf) (Expr.outcome_values_singleton harg)

theorem head : w.toList.head? = some '[' := by
  obtain ⟨f, span, hp, -⟩ := h
  exact TemplateString.head_of_expression hp

/-- In a deployment it is evaluated to what the parameter gives, at its place. -/
theorem outcome_onHost (host : Host Scope) (pointer : String) (s : Scope) :
    outcome (Value.onHost host pointer w) s =
      ((outcome (host.parameterValue name) { s with pointer }).1.mapError (.expression pointer),
        { (outcome (host.parameterValue name) { s with pointer }).2 with pointer := s.pointer }) := by
  unfold Value.onHost
  rw [h.head, if_pos (beq_self_eq_true _), ScopeM.outcome_atPlace, h.outcome_eval]

end Reads

namespace Deployment

def IsSupplied (d : Deployment) (name : String) (v : Json) : Prop :=
  ∀ p, d.template.parameter? name = some p → d.supplied.get? (Name.fold name) = some v

theorem takeSupplied_supplies {t : Template} {deployment name : String} {v : Json} {acc supplied values : Entries Json}
    {s u : Scope} (h : outcome (takeSupplied t deployment acc values) s = (.ok supplied, u))
    (ht : (t.parameter? name).isSome = true) (hv : ∀ e ∈ values, Name.same e.1 name = true → e.2 = v)
    (hacc : acc.get? (Name.fold name) = some v ∨ ∃ e ∈ values, Name.same e.1 name = true) :
    supplied.get? (Name.fold name) = some v := by
  induction values generalizing acc s with
  | nil =>
    cases h
    exact hacc.resolve_right (by simp)
  | cons e values ih =>
    obtain ⟨hev, hv⟩ := List.forall_mem_cons.mp hv
    unfold takeSupplied at h
    dsimp only at h
    split at h
    · rename_i hnone
      obtain ⟨_, _, -, h⟩ := outcome_bind_eq_ok.mp h
      have hother : Name.same e.1 name = false := Bool.eq_false_iff.mpr fun hsame => by
        rw [t.parameter?_congr (Name.same_iff.mp hsame)] at hnone
        rw [hnone] at ht
        cases ht
      exact ih h hv (hacc.imp_right (by simp [hother]))
    · obtain ⟨_, _, -, h⟩ := outcome_bind_eq_ok.mp h
      refine ih h hv ?_
      rw [Entries.get?_insert]
      split
      · rename_i hkey
        exact .inl (congrArg some (hev (Name.same_iff.mpr hkey.symm)))
      · rename_i hkey
        have hother : Name.same e.1 name = false :=
          Bool.eq_false_iff.mpr fun hsame => hkey (Name.same_iff.mp hsame).symm
        exact hacc.imp_right (by simp [hother])

/-- A deployment that is created with a value for a parameter has it supplied. -/
theorem isSupplied_of_create {t : Template} {o : Options} {identity : DeploymentIdentity} {values : Entries Json}
    {d : Deployment} {s u : Scope} (h : outcome (create t o identity values) s = (.ok d, u)) {name : String} {v : Json}
    (hv : Supplies values name v) : d.IsSupplied name v := by
  unfold create at h
  obtain ⟨supplied, _, hs, h⟩ := outcome_bind_eq_ok.mp h
  cases h
  intro p hp
  exact takeSupplied_supplies hs (Option.isSome_iff_exists.mpr ⟨p, hp⟩) hv.only (.inr hv.there)

/-- Scopes where a parameter that is supplied has no other value, and where nothing is taken for a secret unless
some parameter is secure. -/
structure Faithful (d : Deployment) (s : Scope) : Prop where
  supplied : ∀ name v w, d.IsSupplied name v → s.parameters.get? (Name.fold name) = some (.evaluated w) → w = v
  plain : (∀ p ∈ d.template.parameters, p.type.isSecure = false) → s.secure = []

namespace Faithful

variable {d : Deployment} {s : Scope}

theorem fresh (hp : s.parameters = []) (hs : s.secure = []) : d.Faithful s where
  supplied name v w _ hw := by
    rw [hp] at hw
    cases hw
  plain _ := hs

theorem setParameter (h : d.Faithful s) (key : String) : d.Faithful (setParameter key .inProgress s) where
  supplied name v w hv hw := by
    rw [Deployment.setParameter, Entries.get?_insert] at hw
    split at hw
    · cases hw
    · exact h.supplied name v w hv hw
  plain := h.plain

theorem clearParameter (h : d.Faithful s) (key : String) : d.Faithful (clearParameter key s) where
  supplied name v w hv hw := by
    rw [Deployment.clearParameter, Entries.get?_erase] at hw
    split at hw
    · cases hw
    · exact h.supplied name v w hv hw
  plain := h.plain

theorem keepParameter (h : d.Faithful s) {name : String} {p : ParameterDefinition} {v : Json}
    (hp : d.template.parameter? name = some p) (hv : d.MayGive name p v) :
    d.Faithful (keepParameter p (Name.fold name) v s) where
  supplied other u w hu hw := by
    rw [keepParameter_parameters, Entries.get?_insert] at hw
    split at hw
    · rename_i hn
      cases hw
      have hsupplied := hu p ((d.template.parameter?_congr hn).trans hp)
      rw [hn] at hsupplied
      -- a default is taken only where nothing is supplied
      rcases hv with hv | ⟨hv, -⟩
      · exact Option.some.inj (hv.symm.trans hsupplied)
      · rw [hv] at hsupplied
        cases hsupplied
    · exact h.supplied other u w hu hw
  plain ht := by
    have hsecure := ht p (List.mem_of_find?_eq_some hp)
    unfold Deployment.keepParameter
    rw [hsecure]
    exact h.plain ht

end Faithful

theorem steady_faithful (d : Deployment) : Steady d fun s t => d.Faithful s → d.Faithful t where
  refl _ := id
  trans _ _ _ h k := k ∘ h
  loop _ h hs := ⟨(h ⟨hs.supplied, hs.plain⟩).supplied, (h ⟨hs.supplied, hs.plain⟩).plain⟩
  outside h hs := ⟨(h ⟨hs.supplied, hs.plain⟩).supplied, (h ⟨hs.supplied, hs.plain⟩).plain⟩
  place _ h hs := ⟨(h ⟨hs.supplied, hs.plain⟩).supplied, (h ⟨hs.supplied, hs.plain⟩).plain⟩
  report s deployment pointer x hs := by
    obtain ⟨_, _, hr⟩ := s.report_eq deployment pointer x
    rw [hr]
    exact ⟨hs.supplied, hs.plain⟩
  guids _ _ hs := ⟨hs.supplied, hs.plain⟩
  log _ _ hs := ⟨hs.supplied, hs.plain⟩
  keepParameter hp hv _ hs := hs.keepParameter hp hv
  finishParameter hp hv _ h hs := (h (hs.setParameter _)).keepParameter hp hv
  dropParameter _ h hs := (h (hs.setParameter _)).clearParameter _
  finishVariable _ _ h hs := ⟨(h ⟨hs.supplied, hs.plain⟩).supplied, (h ⟨hs.supplied, hs.plain⟩).plain⟩
  dropVariable _ h hs := ⟨(h ⟨hs.supplied, hs.plain⟩).supplied, (h ⟨hs.supplied, hs.plain⟩).plain⟩

theorem LeadsTo.faithful {d : Deployment} {s t : Scope} (h : d.LeadsTo s t) (hs : d.Faithful s) : d.Faithful t :=
  h _ d.steady_faithful (fun _ _ _ hs => ⟨hs.supplied, hs.plain⟩) hs

/-- No parameter is in progress where evaluation leads from a scope without parameters. -/
theorem LeadsTo.not_running {d : Deployment} {s t : Scope} (h : d.LeadsTo s t) (hs : s.parameters = []) (name : String) :
    t.running (Request.slot ⟨.parameters, name⟩) = false := by
  refine Bool.eq_false_iff.mpr fun hrun => ?_
  have hkept := (h.parameters.inProgress (Name.fold name)).mp (Scope.running_iff.mp hrun)
  rw [hs] at hkept
  cases hkept

section
variable {d : Deployment} {E : Evaluations} {s : Scope} {name : String} {v : Json}
  (hs : d.Faithful s) (hv : d.IsSupplied name v)
include hs hv

theorem request_supplied {w : Json} {t : Scope} (h : outcome (d.request E ⟨.parameters, name⟩) s = (.ok w, t)) :
    w = v := by
  cases hslot : s.slot? (Request.slot ⟨.parameters, name⟩) with
  | none =>
    rw [request_free hslot] at h
    unfold origin at h
    dsimp only at h
    cases hp : d.template.parameter? name with
    | none =>
      rw [hp] at h
      cases h
    | some p =>
      rw [hp, hv p hp] at h
      dsimp only at h
      rw [settle_given hslot] at h
      cases h
      rfl
  | some slot =>
    cases slot with
    | inProgress =>
      rw [request_running (Scope.running_iff.mpr hslot)] at h
      cases h
    | evaluated u =>
      rw [request_evaluated hslot] at h
      cases h
      exact hs.supplied name v _ hv hslot

/-- A supplied parameter that is declared gives its value, unless it is asked for while it is computed. -/
theorem request_supplied_ok (hp : (d.template.parameter? name).isSome = true)
    (hrun : s.running (Request.slot ⟨.parameters, name⟩) = false) :
    (outcome (d.request E ⟨.parameters, name⟩) s).1 = .ok v := by
  obtain ⟨p, hp⟩ := Option.isSome_iff_exists.mp hp
  cases hslot : s.slot? (Request.slot ⟨.parameters, name⟩) with
  | none =>
    rw [request_free hslot]
    unfold origin
    dsimp only
    rw [hp, hv p hp]
    dsimp only
    rw [settle_given hslot]
  | some slot =>
    cases slot with
    | inProgress =>
      rw [Scope.running_iff.mpr hslot] at hrun
      cases hrun
    | evaluated u =>
      rw [request_evaluated hslot]
      exact congrArg Except.ok (hs.supplied name v u hv hslot)

variable {w : String} (hw : Reads w name) (l : Ledger) (pointer : String)
include hw

/-- A string that reads a supplied parameter is evaluated to what is supplied. -/
theorem eval_supplied {u : Json} {t : Scope} (h : outcome (Value.onHost (d.host l) pointer w) s = (.ok u, t)) :
    u = v := by
  rw [hw.outcome_onHost, Prod.mk.injEq] at h
  exact request_supplied (E := d.evaluations (d.hostAt l d.slotCount)) (s := { s with pointer })
    ⟨hs.supplied, hs.plain⟩ hv (Prod.ext (mapError_eq_ok.mp h.1) rfl)

theorem eval_supplied_ok (hp : (d.template.parameter? name).isSome = true)
    (hrun : s.running (Request.slot ⟨.parameters, name⟩) = false) :
    (outcome (Value.onHost (d.host l) pointer w) s).1 = .ok v := by
  rw [hw.outcome_onHost]
  exact mapError_eq_ok.mpr (request_supplied_ok (E := d.evaluations (d.hostAt l d.slotCount))
    (s := { s with pointer }) ⟨hs.supplied, hs.plain⟩ hv hp hrun)

end

end Deployment
end ResourceTemplate
