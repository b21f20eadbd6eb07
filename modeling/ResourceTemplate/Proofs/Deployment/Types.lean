import ResourceTemplate.Proofs.Deployment.Depth

namespace ResourceTemplate

/-- Values that a list of allowed values admits: those that are alike one of them, and arrays of such if no
allowed value is an array. -/
inductive ParameterDefinition.Allows (allowed : List Json) : Json → Prop
  | listed {v a : Json} : a ∈ allowed → a.alike v = true → Allows allowed v
  | items {items : List Json} : (∀ a ∈ allowed, a.arr? = none) →
    (∀ v ∈ items, ∃ a ∈ allowed, a.alike v = true) → Allows allowed (.arr items)

/-- Values that fit the declaration of a parameter: null if the parameter is nullable, and what has its type
and is allowed. -/
inductive ParameterDefinition.Fits (p : ParameterDefinition) : Json → Prop
  | null : p.nullable = true → p.Fits .null
  | value {v : Json} : p.type.accepts v = true →
    (∀ allowed, p.allowed = some allowed → Allows allowed v) → p.Fits v

namespace ParameterDefinition

variable {allowed : List Json} {p : ParameterDefinition} {v : Json}

theorem elemAlike_iff : Json.elemAlike v allowed = true ↔ ∃ a ∈ allowed, a.alike v = true :=
  List.any_eq_true

theorem arr?_of_alike {a : Json} {items : List Json} (h : a.alike (.arr items) = true) :
    a.arr?.isSome = true := by
  cases a with
  | arr xs => rfl
  | _ => cases h

theorem isAllowed_iff : isAllowed allowed v = true ↔ Allows allowed v := by
  constructor
  · intro h
    unfold isAllowed at h
    split at h
    · rename_i items
      split at h
      · obtain ⟨a, ha, hv⟩ := elemAlike_iff.mp h
        exact .listed ha hv
      · rename_i hnone
        refine .items (fun a ha => ?_) fun x hx => elemAlike_iff.mp (List.all_eq_true.mp h x hx)
        exact Option.not_isSome_iff_eq_none.mp fun hs => hnone (List.any_eq_true.mpr ⟨a, ha, hs⟩)
    · obtain ⟨a, ha, hv⟩ := elemAlike_iff.mp h
      exact .listed ha hv
  · intro h
    unfold isAllowed
    cases h with
    | listed ha hv =>
      split
      · rw [if_pos (List.any_eq_true.mpr ⟨_, ha, arr?_of_alike hv⟩)]
        exact elemAlike_iff.mpr ⟨_, ha, hv⟩
      · exact elemAlike_iff.mpr ⟨_, ha, hv⟩
    | items hnone hitems =>
      dsimp only
      rw [if_neg]
      · exact List.all_eq_true.mpr fun x hx => elemAlike_iff.mpr (hitems x hx)
      · intro h
        obtain ⟨a, ha, hs⟩ := List.any_eq_true.mp h
        rw [hnone a ha] at hs
        cases hs

/-- The check of a declaration passes what fits it and nothing else. -/
theorem check_eq_ok : p.check v = .ok () ↔ p.Fits v := by
  unfold check
  split
  · rename_i hn
    obtain ⟨hv, hp⟩ := (Bool.and_eq_true _ _).mp hn
    have hv : v = .null := by
      cases v with
      | null => rfl
      | _ => cases hv
    subst hv
    exact ⟨fun _ => .null hp, fun _ => rfl⟩
  · rename_i hn
    have hfits : p.Fits v ↔ p.type.accepts v = true ∧
        ∀ allowed, p.allowed = some allowed → Allows allowed v := by
      constructor
      · intro h
        cases h with
        | null hp => exact absurd hp hn
        | value ht ha => exact ⟨ht, ha⟩
      · rintro ⟨ht, ha⟩
        exact .value ht ha
    rw [hfits]
    cases p.type.accepts v with
    | false => simp
    | true =>
      cases hall : p.allowed with
      | none => simp
      | some allowed => simp [← isAllowed_iff]

instance (p : ParameterDefinition) (v : Json) : Decidable (p.Fits v) :=
  match h : p.check v with
  | .ok () => .isTrue (check_eq_ok.mp h)
  | .error _ => .isFalse fun hf => nomatch h.symm.trans (check_eq_ok.mpr hf)

end ParameterDefinition

namespace UserFunction

variable {f : UserFunction} {bound : Entries Json}

theorem bindParameters_accepts {qualified : String} {acc : Entries Json}
    {params : List (String × ParameterType)} {values : List Json}
    (h : bindParameters qualified acc params values = .ok bound) {key : String} {v : Json}
    (hv : bound.get? key = some v) : acc.get? key = some v ∨
      ∃ param ∈ params, Name.fold param.1 = key ∧ param.2.accepts v = true := by
  fun_induction bindParameters qualified acc params values with
  | case1 acc name type params w values ht ih =>
    rcases ih h with hacc | ⟨param, hp, hk⟩
    · rw [Entries.get?_insert] at hacc
      split at hacc
      · rename_i hk
        cases hacc
        exact .inr ⟨_, List.mem_cons_self, hk.symm, ht⟩
      · exact .inl hacc
    · exact .inr ⟨param, List.mem_cons_of_mem _ hp, hk⟩
  | case2 => cases h
  | case3 =>
    cases h
    exact .inl hv

/-- What the body of a function finds under a name is accepted by a parameter of the name. -/
theorem parameterValue_accepts {d : Deployment} {call : String → String → List Json → EvalM Scope Json}
    {qualified name : String} {arguments : List Json} {s : Scope} {v : Json}
    (h : bindParameters qualified [] f.parameters arguments = .ok bound)
    (hv : (outcome ((f.bodyHost d call bound).parameterValue name) s).1 = .ok v) :
    ∃ param ∈ f.parameters, Name.same param.1 name = true ∧ param.2.accepts v = true := by
  unfold bodyHost at hv
  dsimp only at hv
  cases hg : bound.get? (Name.fold name) with
  | none =>
    rw [hg] at hv
    cases hv
  | some w =>
    rw [hg] at hv
    cases hv
    rcases bindParameters_accepts h hg with hnil | ⟨param, hp, hk, ha⟩
    · cases hnil
    · exact ⟨param, hp, Name.same_iff.mpr hk, ha⟩

end UserFunction

namespace Deployment

variable {d : Deployment} {l : Ledger}

/-- A value that a function gives has its output type; the function was called with values for its
parameters. -/
theorem callFunction_ok {depth : Nat} {ns name : String} {arguments : List Json} {s : Scope} {v : Json}
    (h : (outcome (d.callFunction depth ns name arguments) s).1 = .ok v) :
    ∃ f bound, d.template.function? ns name = some f ∧
      UserFunction.bindParameters (ns ++ "." ++ name) [] f.parameters arguments = .ok bound ∧
      f.outputType.accepts v = true := by
  cases depth with
  | zero => cases h
  | succ depth =>
    unfold callFunction applyFunction at h
    dsimp only at h
    cases hf : d.template.function? ns name with
    | none =>
      rw [hf] at h
      cases h
    | some f =>
      rw [hf] at h
      dsimp only at h
      split at h
      · cases h
      · obtain ⟨bound, _, hb, h⟩ := outcome_bind_eq_ok.mp (Prod.ext h rfl)
        obtain ⟨w, u, -, h⟩ := outcome_bind_eq_ok.mp h
        split at h
        · rename_i ht
          cases h
          exact ⟨f, bound, rfl, (Prod.mk.inj hb).1, ht⟩
        · cases h

def SuppliesFitting (d : Deployment) : Prop :=
  ∀ name p v, d.template.parameter? name = some p → d.supplied.get? (Name.fold name) = some v → p.Fits v

def Typed (d : Deployment) (s : Scope) : Prop :=
  ∀ name v, s.parameters.get? (Name.fold name) = some (.evaluated v) →
    ∃ p, d.template.parameter? name = some p ∧ p.Fits v

theorem takeSupplied_fits {t : Template} {deployment : String} {acc supplied values : Entries Json}
    {s u : Scope} (h : outcome (takeSupplied t deployment acc values) s = (.ok supplied, u))
    (hacc : ∀ name p v, t.parameter? name = some p → acc.get? (Name.fold name) = some v → p.Fits v) :
    ∀ name p v, t.parameter? name = some p → supplied.get? (Name.fold name) = some v → p.Fits v := by
  induction values generalizing acc s with
  | nil =>
    cases h
    exact hacc
  | cons e values ih =>
    obtain ⟨name, w⟩ := e
    unfold takeSupplied at h
    dsimp only at h
    split at h
    · obtain ⟨_, _, -, h⟩ := outcome_bind_eq_ok.mp h
      exact ih h hacc
    · rename_i p hp
      obtain ⟨_, _, hc, h⟩ := outcome_bind_eq_ok.mp h
      have hw : p.Fits w :=
        ParameterDefinition.check_eq_ok.mp (mapError_eq_ok.mp (Prod.mk.inj hc).1)
      refine ih h fun other q v hq hv => ?_
      rw [Entries.get?_insert] at hv
      split at hv
      · rename_i hn
        rw [t.parameter?_congr hn, hp] at hq
        cases hq
        cases hv
        exact hw
      · exact hacc other q v hq hv

theorem suppliesFitting_of_create {t : Template} {o : Options} {identity : DeploymentIdentity}
    {values : Entries Json} {s u : Scope}
    (h : outcome (create t o identity values) s = (.ok d, u)) : d.SuppliesFitting := by
  unfold create at h
  obtain ⟨supplied, v, hs, h⟩ := outcome_bind_eq_ok.mp h
  cases h
  exact takeSupplied_fits hs fun _ _ _ _ => nofun

theorem SuppliesFitting.fits (h : d.SuppliesFitting) {name : String} {p : ParameterDefinition} {v : Json}
    (hp : d.template.parameter? name = some p) (hv : d.MayGive name p v) : p.Fits v := by
  rcases hv with hv | ⟨-, hv⟩
  · exact h name p v hp hv
  · exact ParameterDefinition.check_eq_ok.mp hv

namespace Typed

variable {s : Scope} {key : String}

theorem of_fresh (h : s.parameters = []) : d.Typed s := by
  intro name v hv
  rw [h] at hv
  cases hv

theorem of_eq {t : Scope} (h : d.Typed s) (hp : t.parameters = s.parameters) : d.Typed t := by
  intro name v hv
  exact h name v (hp ▸ hv)

theorem keepParameter {name : String} {p : ParameterDefinition} {v : Json} (h : d.Typed s)
    (hp : d.template.parameter? name = some p) (hv : p.Fits v) :
    d.Typed (Deployment.keepParameter p (Name.fold name) v s) := by
  intro other w hw
  rw [keepParameter_parameters, Entries.get?_insert] at hw
  split at hw
  · rename_i hn
    cases hw
    exact ⟨p, (d.template.parameter?_congr hn).trans hp, hv⟩
  · exact h other w hw

theorem inProgress (h : d.Typed s) : d.Typed (setParameter key .inProgress s) := by
  intro name v hv
  rw [setParameter, Entries.get?_insert] at hv
  split at hv
  · cases hv
  · exact h name v hv

theorem clearParameter (h : d.Typed s) : d.Typed (Deployment.clearParameter key s) := by
  intro name v hv
  rw [Deployment.clearParameter, Entries.get?_erase] at hv
  split at hv
  · cases hv
  · exact h name v hv

theorem enter (h : d.Typed s) (x : SlotName) : d.Typed (s.enter x) := by
  obtain ⟨table, key⟩ := x
  cases table with
  | parameters => exact h.inProgress.of_eq rfl
  | vars => exact h.of_eq rfl

end Typed

theorem SuppliesFitting.steady (h : d.SuppliesFitting) : Steady d fun s t => d.Typed s → d.Typed t where
  refl _ := id
  trans _ _ _ h k hs := k (h hs)
  loop _ h hs := h hs
  outside h hs := h hs
  place _ h hs := h hs
  report s deployment pointer x hs := by
    obtain ⟨_, _, hr⟩ := s.report_eq deployment pointer x
    rw [hr]
    exact hs
  guids _ _ := id
  log _ _ := id
  keepParameter hp hv _ hs := hs.keepParameter hp (h.fits hp hv)
  finishParameter hp hv _ ht hs := (ht hs.inProgress).keepParameter hp (h.fits hp hv)
  dropParameter _ ht hs := (ht hs.inProgress).clearParameter
  finishVariable _ _ ht hs := ht hs
  dropVariable _ ht hs := ht hs

/-- The accord of steps that do the same where the values of parameters fit, and keep them so. -/
def typed (d : Deployment) {ε : Type} : Accord ε Scope := .between fun s t => t = s ∧ d.Typed s

/-- A step that keeps the values of parameters fitting agrees with itself. -/
theorem typed_refl {ε α : Type} {m : ExceptT ε (StateM Scope) α}
    (hm : ∀ s, d.Typed s → d.Typed (outcome m s).2) : d.typed.Agree m m := by
  rintro s _ ⟨rfl, hs⟩
  exact ⟨rfl, rfl, hm _ hs⟩

theorem typed_encloses (d : Deployment) :
    (d.typed : Accord ExpandError Scope).Encloses d.typed Eq where
  inside := ⟨fun _ => typed_refl fun _ hs => hs⟩
  append _ h := congrArg (· ++ _) h
  lift {α f p q} hpq _ _ := by
    subst hpq
    exact typed_refl fun _ hs => hs
  atPlace {α m n p q} hpq hm := by
    subst hpq
    rintro _ s ⟨rfl, hs⟩
    obtain ⟨hr, ht, hs⟩ := hm { s with pointer := p } _ ⟨rfl, hs⟩
    rw [ScopeM.outcome_atPlace, ScopeM.outcome_atPlace, hr, ht]
    exact ⟨rfl, rfl, hs⟩
  withLoop {α m n} name i hm := by
    rintro _ s ⟨rfl, hs⟩
    obtain ⟨hr, ht, hs⟩ := hm { s with loops := (name, (i : Int)) :: s.loops } _ ⟨rfl, hs⟩
    rw [ScopeM.outcome_withLoop, ScopeM.outcome_withLoop, hr, ht]
    exact ⟨rfl, rfl, hs⟩
  refl _ := rfl
  toEval {α m n} hm := by
    rintro _ s ⟨rfl, hs⟩
    obtain ⟨hr, ht, hs⟩ := hm s s ⟨rfl, hs⟩
    rw [ScopeM.outcome_toEval, ScopeM.outcome_toEval, hr, ht]
    exact ⟨rfl, rfl, hs⟩

section
variable (h : d.SuppliesFitting)
include h

theorem SuppliesFitting.accords (l : Ledger) : d.Accords l l d.typed .all where
  evaluates := d.typed_encloses.inside
  copyIndex _ := typed_refl fun _ hs => hs
  newGuid _ := typed_refl fun s => (h.steady.obeys l).newGuid s
  remark text := typed_refl fun s => (h.steady.obeys l).remark text s
  resolve _ view target := typed_refl fun s => (h.steady.obeys l).resolve view target s

end

def answerFits (d : Deployment) (x : Request) (v : Json) : Bool :=
  match x.table with
  | .parameters => (d.template.parameter? x.name).any fun p => p.Fits v
  | .vars => true

/-- The answer of a deployment that fails rather than give a parameter a value that does not fit. -/
def strictRequest (d : Deployment) (e : ExprError) (E : Evaluations) (x : Request) : EvalM Scope Json := do
  let v ← d.request E x
  if d.answerFits x v then return v else throw e

theorem answerFits_of_request {E : Evaluations} {x : Request} {s : Scope} {v : Json}
    (h : (outcome (d.request E x) s).1 = .ok v) (ht : d.Typed (outcome (d.request E x) s).2) :
    d.answerFits x v = true := by
  have hslot := slot?_of_request h
  obtain ⟨table, name⟩ := x
  cases table with
  | parameters =>
    obtain ⟨p, hp, hv⟩ := ht name v hslot
    change (d.template.parameter? name).any _ = true
    rw [hp]
    exact decide_eq_true hv
  | vars => rfl

section
variable (h : d.SuppliesFitting)
include h

/-- Requests do the same on hosts that do the same one level below. -/
theorem SuppliesFitting.request_typed {depth : Nat} {F : Evaluations}
    (hF : (d.evaluations (d.hostAt l depth)).Agree d.typed Eq Callees.all.Admits F) (x : Request) :
    d.typed.Agree (d.request (d.evaluations (d.hostAt l depth)) x) (d.request F x) := by
  rintro _ s ⟨rfl, hs⟩
  have hkept : d.Typed (outcome (d.request (d.evaluations (d.hostAt l depth)) x) s).2 := by
    rw [← answer_hostAt_succ]
    exact h.steady.inquiry l (depth + 1) (.request x) s hs
  suffices hsame : outcome (d.request F x) s =
      outcome (d.request (d.evaluations (d.hostAt l depth)) x) s by
    rw [hsame]
    exact ⟨rfl, rfl, hkept⟩
  cases hslot : s.slot? x.slot with
  | some slot =>
    cases slot with
    | inProgress =>
      have hr := Scope.running_iff.mpr hslot
      rw [request_running hr, request_running hr]
    | evaluated v => rw [request_evaluated hslot, request_evaluated hslot]
  | none =>
    have ha := hF.answer d.typed_encloses (Origin.Near.refl (fun _ => rfl) (d.origin x))
      (d.origin x).cover_all fun _ => d.definite_origin
    obtain ⟨hr, ht, -⟩ := ha _ _ ⟨rfl, hs.enter x.slot⟩
    rw [request_free hslot, request_free hslot, Prod.ext hr ht]

/-- To fail rather than give a parameter a value that does not fit makes no difference. -/
theorem SuppliesFitting.strictRequest_typed {depth : Nat} {F : Evaluations}
    (hF : (d.evaluations (d.hostAt l depth)).Agree d.typed Eq Callees.all.Admits F) (e : ExprError) (x : Request) :
    d.typed.Agree (d.request (d.evaluations (d.hostAt l depth)) x) (d.strictRequest e F x) := by
  rintro _ s ⟨rfl, hs⟩
  obtain ⟨hr, ht, hkept⟩ := h.request_typed hF x s s ⟨rfl, hs⟩
  unfold strictRequest
  rw [outcome_bind, Prod.ext hr ht]
  rcases ho : outcome (d.request (d.evaluations (d.hostAt l depth)) x) s with ⟨e' | v, u⟩
  · rw [ho] at hkept
    exact ⟨rfl, rfl, hkept⟩
  · have hfits : d.answerFits x v = true := answerFits_of_request (congrArg Prod.fst ho) hkept
    rw [ho] at hkept
    dsimp only
    rw [if_pos hfits]
    exact ⟨rfl, rfl, hkept⟩

theorem SuppliesFitting.hosts_strict (e : ExprError) (l : Ledger) (depth : Nat) :
    HostsAgree d.typed .all (d.hostAt l depth)
      (d.hostsBy l d.callDepth (d.strictRequest e) depth) := by
  have haccords := h.accords l
  have hthrow : d.typed.Agree (throw .callDepthExceeded : EvalM Scope Json) (throw .callDepthExceeded) :=
    typed_refl fun _ hs => hs
  have hcalls (ns name : String) (hdefined : Callees.all.defined ns name) (arguments : List Json) :=
    haccords.callFunction hthrow (fun _ _ _ _ _ => Callees.cover_all _) d.callDepth hdefined arguments
  induction depth with
  | zero =>
    rw [hostAt_eq]
    exact haccords.hostBy hcalls fun _ => hthrow
  | succ depth ih =>
    rw [hostAt_eq]
    refine haccords.hostBy hcalls fun x => ?_
    rw [← hostAt_eq]
    exact h.strictRequest_typed (d.evaluations_agree d.typed_encloses ih) e x

end

/-- Whether a deployment keeps parameters to their types in a scope, whatever resources there are: the
value that a parameter gives is one that fits its declaration, and an evaluation of whatever does the same if it
fails as soon as a parameter, asked for within it, would give any other. -/
structure Enforces (d : Deployment) (s : Scope) : Prop where
  given (l : Ledger) (depth : Nat) (name : String) (v : Json) :
    (outcome ((d.hostAt l depth).parameterValue name) s).1 = .ok v →
    ∃ p, d.template.parameter? name = some p ∧ p.Fits v
  strict (l : Ledger) (depth : Nat) (e : ExprError) (i : Inquiry) :
    outcome (i.on d (d.hostsBy l d.callDepth (d.strictRequest e) depth)) s =
      outcome (i.on d (d.hostAt l depth)) s

theorem Typed.enforces {s : Scope} (hs : d.Typed s) (h : d.SuppliesFitting) : d.Enforces s where
  given l depth name v hv := by
    cases depth with
    | zero => cases hv
    | succ depth =>
      have hkept : d.Typed (outcome ((d.hostAt l (depth + 1)).answer ⟨.parameters, name⟩) s).2 :=
        h.steady.inquiry l (depth + 1) (.request ⟨.parameters, name⟩) s hs
      change (outcome ((d.hostAt l (depth + 1)).answer ⟨.parameters, name⟩) s).1 = .ok v at hv
      rw [answer_hostAt_succ] at hv hkept
      have hfits : (d.template.parameter? name).any fun p => p.Fits v := answerFits_of_request hv hkept
      obtain ⟨p, hp, hf⟩ := (Option.any_eq_true _ _).mp hfits
      exact ⟨p, hp, of_decide_eq_true hf⟩
  strict l depth e i := by
    obtain ⟨hr, ht, -⟩ := i.agree (d := d) d.typed_encloses (h.hosts_strict e l depth) s s ⟨rfl, hs⟩
    exact Prod.ext hr ht

end Deployment
end ResourceTemplate
