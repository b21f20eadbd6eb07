import ResourceTemplate.Proofs.Deployment.Changes
import ResourceTemplate.Proofs.Redaction

namespace ResourceTemplate

/-- What shows a value is taken for a secret where something equal to it is. -/
theorem Redaction.isSecure_of_mem {secure : List Json} {u v w : Json} (hu : u ∈ secure)
    (hw : u.eqUnordered w = true) (h : v.Shows w) : isSecure secure w = true := by
  obtain ⟨ht, hv, hp⟩ := h
  cases v with
  | str s =>
    cases w with
    | str t =>
      cases u with
      | str r =>
        have hr : r = t := by simpa [Json.eqUnordered] using hw
        rw [isSecure, hp t rfl, Bool.not_false, Bool.true_and, List.any_eq_true]
        exact ⟨.str r, hu, by simp [Json.str?, hr]⟩
      | _ => simp [Json.eqUnordered] at hw
    | _ => simp [Json.eqUnordered] at hv
  | obj es =>
    cases w with
    | obj fs =>
      cases u with
      | obj gs =>
        rw [isSecure, List.any_eq_true]
        exact ⟨.obj gs, hu, by rw [hw]; rfl⟩
      | _ => simp [Json.eqUnordered] at hw
    | _ => simp [Json.eqUnordered] at hv
  | _ => cases ht

theorem Redaction.isSecure_append {secure : List Json} {w : Json} (h : isSecure secure w = true)
    (more : List Json) : isSecure (secure ++ more) w = true := by
  unfold isSecure at *
  split
  · simp only [Bool.and_eq_true, List.any_append, Bool.or_eq_true] at *
    exact ⟨h.1, .inl h.2⟩
  · simp only [List.any_append, Bool.or_eq_true] at *
    exact .inl h
  · rename_i hs ho
    split at h
    · exact absurd rfl (hs _)
    · exact absurd rfl (ho _)
    · exact h

namespace Scope

theorem isSecure_remember {v w : Json} (s : Scope) (h : v.Shows w) :
    Redaction.isSecure (s.remember v).secure w = true := by
  unfold remember
  split
  · exact Redaction.isSecure_of_mem (List.mem_append_right _ List.mem_cons_self) h.same h
  · rename_i hc
    -- it is not added, so that an equal value is there
    obtain ⟨u, hu, huv⟩ : ∃ u ∈ s.secure, u.eqUnordered v = true := by
      simpa [h.trackable] using hc
    exact Redaction.isSecure_of_mem hu (Json.eqUnordered_trans u v w huv h.same) h

theorem isSecure_remember_of {w : Json} {s : Scope} (h : Redaction.isSecure s.secure w = true)
    (v : Json) : Redaction.isSecure (s.remember v).secure w = true := by
  unfold remember
  split
  · exact Redaction.isSecure_append h _
  · exact h

end Scope

namespace Deployment

variable {d : Deployment}

/-- Whether the values of the secure parameters that have one are remembered: whatever shows such a value
is taken for a secret. -/
def Remembers (d : Deployment) (s : Scope) : Prop :=
  ∀ name p v w, d.template.parameter? name = some p → p.type.isSecure = true →
    s.parameters.get? (Name.fold name) = some (.evaluated v) → v.Shows w →
    Redaction.isSecure s.secure w = true

theorem isSecure_keepParameter {w : Json} {s : Scope} (h : Redaction.isSecure s.secure w = true)
    (p : ParameterDefinition) (key : String) (v : Json) :
    Redaction.isSecure (keepParameter p key v s).secure w = true := by
  unfold keepParameter
  split
  · exact Scope.isSecure_remember_of h v
  · exact h

theorem remembers_keepParameter {s : Scope} {name : String} {p : ParameterDefinition} (v : Json)
    (hp : d.template.parameter? name = some p) (h : d.Remembers s) :
    d.Remembers (keepParameter p (Name.fold name) v s) := by
  intro other q u w hq hs hu hw
  rw [keepParameter_parameters, Entries.get?_insert] at hu
  split at hu
  · rename_i hn
    rw [d.template.parameter?_congr hn] at hq
    have hqp : q = p := Option.some.inj (hq.symm.trans hp)
    cases hu
    rw [keepParameter, if_pos (hqp ▸ hs)]
    exact s.isSecure_remember hw
  · exact isSecure_keepParameter (h other q u w hq hs hu hw) p _ v

/-- What later states of a scope have in common with earlier ones: secure values are remembered if they
were, and the value of a parameter that was asked for stays. -/
structure Later (d : Deployment) (s t : Scope) : Prop where
  remembers : d.Remembers s → d.Remembers t
  kept : ∀ key v, s.parameters.get? key = some (.evaluated v) →
    t.parameters.get? key = some (.evaluated v)

namespace Later

theorem refl (s : Scope) : d.Later s s := ⟨id, fun _ _ => id⟩

theorem trans {s t u : Scope} (h : d.Later s t) (k : d.Later t u) : d.Later s u :=
  ⟨fun hs => k.remembers (h.remembers hs), fun key v hv => k.kept key v (h.kept key v hv)⟩

/-- A scope that differs in neither parameters nor secure values is as late as another. -/
theorem of_eq {s t : Scope} (hp : t.parameters = s.parameters) (hs : t.secure = s.secure) :
    d.Later s t where
  remembers h name p v w hn hsec hv hw := by
    rw [hs]
    exact h name p v w hn hsec (hp ▸ hv) hw
  kept key v hv := hp ▸ hv

/-- Where a parameter has no value yet, its mark takes none away. -/
theorem inProgress {s : Scope} {key : String} (hs : s.parameters.get? key = none) :
    d.Later s (setParameter key .inProgress s) where
  remembers h name p v w hp hsec hv hw := by
    rw [setParameter, Entries.get?_insert] at hv
    split at hv
    · cases hv
    · exact h name p v w hp hsec hv hw
  kept k v hv := by
    rw [setParameter, Entries.get?_insert]
    split
    · rename_i hk
      rw [hk, hs] at hv
      cases hv
    · exact hv

end Later

/-- Evaluation loses neither the value of a parameter nor the memory of a secret. -/
theorem steady_later (d : Deployment) : Steady d d.Later where
  refl := .refl
  trans _ _ _ := .trans
  loop _ h := ⟨h.remembers, h.kept⟩
  outside h := ⟨h.remembers, h.kept⟩
  place _ h := ⟨h.remembers, h.kept⟩
  report s deployment pointer x := by
    obtain ⟨_, _, hr⟩ := s.report_eq deployment pointer x
    rw [hr]
    exact .of_eq rfl rfl
  guids _ _ := .of_eq rfl rfl
  log _ _ := .of_eq rfl rfl
  keepParameter {s name p v} hp _ hs := by
    refine ⟨remembers_keepParameter v hp, ?_⟩
    intro key u hu
    rw [keepParameter_parameters, Entries.get?_insert, if_neg]
    · exact hu
    · rintro rfl
      rw [hs] at hu
      cases hu
  finishParameter {s t name p v} hp _ hs h := by
    have hm : d.Later s t := (Later.inProgress hs).trans h
    refine ⟨fun hr => remembers_keepParameter v hp (hm.remembers hr), ?_⟩
    intro key u hu
    rw [keepParameter_parameters, Entries.get?_insert, if_neg]
    · exact hm.kept key u hu
    · rintro rfl
      rw [hs] at hu
      cases hu
  dropParameter {s t key} hs h := by
    have hm : d.Later s t := (Later.inProgress hs).trans h
    refine ⟨?_, ?_⟩
    · intro hr name p v w hp hsec hv hw
      rw [clearParameter, Entries.get?_erase] at hv
      split at hv
      · cases hv
      · exact hm.remembers hr name p v w hp hsec hv hw
    · intro k u hu
      rw [clearParameter, Entries.get?_erase, if_neg]
      · exact hm.kept k u hu
      · rintro rfl
        rw [hs] at hu
        cases hu
  finishVariable _ _ h := ⟨h.remembers, h.kept⟩
  dropVariable _ h := ⟨h.remembers, h.kept⟩

theorem LeadsTo.later {s t : Scope} (h : d.LeadsTo s t) : d.Later s t :=
  h _ d.steady_later fun _ _ _ => .of_eq rfl rfl

/-- What a parameter gives when it is asked for is its value from then on. -/
theorem get?_of_parameterValue {eval : Evaluation} {name : String} {s t : Scope} {v : Json}
    (h : outcome (d.parameterValue eval name) s = (.ok v, t)) :
    t.parameters.get? (Name.fold name) = some (.evaluated v) := by
  unfold parameterValue at h
  simp only [outcome_bind, outcome_get] at h
  split at h
  · rename_i hs
    cases h
    exact hs
  · cases h
  · split at h
    · cases h
    · obtain ⟨u, t', -, h⟩ := outcome_bind_eq_ok.mp h
      cases h
      rw [keepParameter_parameters, Entries.get?_insert, if_pos rfl]

/-- Whether a parameter gave a value when it was asked for, at the latest in a state of the scope. -/
def Gave (d : Deployment) (u : Scope) (name : String) (v : Json) : Prop :=
  ∃ eval s t, outcome (d.parameterValue eval name) s = (.ok v, t) ∧ d.Later t u

/-- Whatever shows the value that a secure parameter gave is taken for a secret. -/
theorem Remembers.isSecure {u : Scope} (h : d.Remembers u) {name : String} {p : ParameterDefinition}
    {v w : Json} (hp : d.template.parameter? name = some p) (hs : p.type.isSecure = true)
    (hv : d.Gave u name v) (hw : v.Shows w) : Redaction.isSecure u.secure w = true := by
  obtain ⟨eval, s, t, hg, hl⟩ := hv
  exact h name p v w hp hs (hl.kept _ v (get?_of_parameterValue hg)) hw

end Deployment
end ResourceTemplate
