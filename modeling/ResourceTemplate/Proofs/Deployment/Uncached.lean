import ResourceTemplate.Proofs.Deployment.Depth

namespace ResourceTemplate

variable {α : Type}

namespace Scope

variable {s t u : Scope} {x : SlotName}

def Uncached (t : Scope) : Prop := ∀ x v, t.slot? x ≠ some (.evaluated v)

def Apart (t s : Scope) : Prop := ∀ x, t.running x = true → ∀ v, s.slot? x ≠ some (.evaluated v)

def Unaided (s : Scope) : Prop := s.guids = 0 ∧ ∀ x ∈ s.diagnostics, x.code ≠ .externalReference

instance (s : Scope) : Decidable s.Unaided := inferInstanceAs (Decidable (_ ∧ _))

theorem unaided_start (loops : List (String × Int)) : Unaided { loops } :=
  ⟨rfl, fun _ h => absurd h List.not_mem_nil⟩

def aid (s : Scope) : Nat × List Diagnostic := (s.guids, s.diagnostics)

theorem unaided_congr (h : t.aid = s.aid) : t.Unaided ↔ s.Unaided := by
  obtain ⟨hg, hd⟩ := Prod.mk.inj h
  unfold Unaided
  rw [hg, hd]

theorem aid_put (x : SlotName) (slot : Slot) (s : Scope) : (s.put x slot).aid = s.aid := by
  obtain ⟨table, key⟩ := x
  cases table <;> rfl

theorem aid_drop (x : SlotName) (s : Scope) : (s.drop x).aid = s.aid := by
  obtain ⟨table, key⟩ := x
  cases table <;> rfl

theorem aid_keep (d : Deployment) (x : Request) (v : Json) (s : Scope) : (d.keep x v s).aid = s.aid := by
  obtain ⟨_, hs⟩ := Deployment.remember_eq (d := d) (x := x) (s := s) v
  unfold Deployment.keep
  rw [aid_put, hs]
  rfl

theorem Unaided.of_report {deployment pointer : String} {x : Diagnostic}
    (h : (s.report deployment pointer x).Unaided) : s.Unaided := by
  unfold report at h
  dsimp only at h
  split at h
  · exact h
  · exact ⟨h.1, fun y hy => h.2 y (List.mem_append_left _ hy)⟩

theorem Unaided.report (h : s.Unaided) {deployment pointer : String} {x : Diagnostic}
    (hx : x.code ≠ .externalReference) : (s.report deployment pointer x).Unaided := by
  have hcode : (x.located deployment pointer).code = x.code := by
    unfold Diagnostic.located
    split <;> rfl
  unfold Scope.report
  dsimp only
  split
  · exact h
  · refine ⟨h.1, fun y hy => ?_⟩
    rcases List.mem_append.mp hy with hy | hy
    · exact h.2 y hy
    · rw [List.mem_singleton.mp hy, hcode]
      exact hx

theorem not_unaided_report {deployment pointer : String} {x : Diagnostic} (hx : x.code = .externalReference) :
    ¬ (s.report deployment pointer x).Unaided := by
  have hcode : (x.located deployment pointer).code = .externalReference := by
    unfold Diagnostic.located
    split <;> exact hx
  intro h
  refine h.2 (x.located deployment pointer) ?_ hcode
  unfold report
  dsimp only
  split
  · exact List.contains_iff_mem.mp (by assumption)
  · exact List.mem_append_right _ (List.mem_singleton_self _)

/-- Slots and loops that are left as they were, by steps that make up for no identifier and no resource. -/
structure Kept (s t : Scope) : Prop where
  parameters : t.parameters = s.parameters
  vars : t.vars = s.vars
  loops : t.loops = s.loops
  unaided : t.Unaided → s.Unaided

theorem Kept.slot? (h : s.Kept t) (x : SlotName) : t.slot? x = s.slot? x :=
  slot?_congr h.parameters h.vars x

theorem Kept.running (h : s.Kept t) (x : SlotName) : t.running x = s.running x :=
  running_congr (h.slot? x)

theorem Kept.uncached (h : s.Kept t) (hs : s.Uncached) : t.Uncached := by
  intro x v
  rw [h.slot?]
  exact hs x v

theorem Kept.refl (s : Scope) : s.Kept s := ⟨rfl, rfl, rfl, id⟩

theorem Kept.report (s : Scope) (deployment pointer : String) (x : Diagnostic) :
    s.Kept (s.report deployment pointer x) ∧ (s.report deployment pointer x).pointer = s.pointer := by
  have hu : (s.report deployment pointer x).Unaided → s.Unaided := .of_report
  obtain ⟨_, _, hr⟩ := s.report_eq deployment pointer x
  rw [hr] at hu ⊢
  exact ⟨⟨rfl, rfl, rfl, hu⟩, rfl⟩

theorem keptFrame : Frame Kept where
  refl := .refl
  trans _ _ _ h k :=
    ⟨k.parameters.trans h.parameters, k.vars.trans h.vars, k.loops.trans h.loops, fun hu => h.unaided (k.unaided hu)⟩

theorem unaidedFrame : Frame fun s t : Scope => s.Unaided → t.Unaided := ⟨fun _ => id, fun _ _ _ h k hs => k (h hs)⟩

/-- A slot that is free and not in progress has nothing. -/
theorem Uncached.slot? (h : t.Uncached) (hx : t.running x = false) : t.slot? x = none := by
  cases hs : t.slot? x with
  | none => rfl
  | some slot =>
    cases slot with
    | inProgress =>
      rw [running_iff.mpr hs] at hx
      cases hx
    | evaluated v => exact absurd hs (h x v)

theorem Uncached.enter (h : t.Uncached) (x : SlotName) : (t.enter x).Uncached := by
  intro y v
  rw [slot?_enter]
  by_cases hy : y = x
  · rw [if_pos hy]
    nofun
  · rw [if_neg hy]
    exact h y v

/-- What is apart from a later scope is apart from an earlier one. -/
theorem Apart.of_undisturbed (h : t.Apart u) (hs : s.Undisturbed u) : t.Apart s := by
  intro x hx v hv
  exact h x hx v ((hs.slot? x).2 v hv)

/-- Slots in progress have no value where the same are in progress. -/
theorem Apart.of_running (h : ∀ x, t.running x = s.running x) : t.Apart s := by
  intro x hx v hv
  rw [h, running_iff, hv] at hx
  cases hx

theorem Apart.of_idle (h : ∀ x, t.running x = false) : t.Apart s := by
  intro x hx
  rw [h] at hx
  cases hx

theorem Apart.enter (h : t.Apart s) (hx : s.slot? x = some .inProgress) : (t.enter x).Apart s := by
  intro y hy v hv
  rw [running_enter] at hy
  by_cases hyx : y = x
  · rw [hyx, hx] at hv
    cases hv
  · rw [if_neg hyx] at hy
    exact h y hy v hv

theorem Apart.of_kept (h : t.Apart u) (hs : t.Kept s) : s.Apart u := by
  intro x hx
  rw [hs.running] at hx
  exact h x hx

end Scope

namespace Deployment

variable (d : Deployment)

def uncachedRequest (E : Evaluations) (x : Request) : EvalM Scope Json := fun s =>
  ((outcome (d.request E x) s).1,
    { (outcome (d.request E x) s).2 with parameters := s.parameters, vars := s.vars })

def uncachedAt (depth : Nat) : Host Scope :=
  d.hostsBy (.ofDeclarations []) d.callDepth d.uncachedRequest depth

/-- A scope whose every value is what a deployment gives that keeps none, with any spelling of its name, where
nothing is in progress that has a value and no identifier or resource is needed. -/
def Coherent (s : Scope) : Prop :=
  ∀ x v, s.slot? x.slot = some (.evaluated v) → ∀ t depth, t.Uncached → t.Apart s →
    t.free d.declared < depth → (outcome ((d.uncachedAt depth).answer x) t).2.Unaided →
      (outcome ((d.uncachedAt depth).answer x) t).1 = .ok v

variable {d} {s t : Scope} {x : Request}

theorem Coherent.of_evaluated (h : d.Coherent s)
    (ht : ∀ x v, t.slot? x = some (.evaluated v) ↔ s.slot? x = some (.evaluated v)) : d.Coherent t := by
  intro x v hv u depth hu ha hfree hun
  refine h x v ((ht _ v).mp hv) u depth hu (fun y hy w hw => ?_) hfree hun
  exact ha y hy w ((ht y w).mpr hw)

theorem Coherent.enter (h : d.Coherent s) {y : SlotName} (hy : s.slot? y = none) :
    d.Coherent (s.enter y) := by
  refine h.of_evaluated fun z v => ?_
  rw [Scope.slot?_enter]
  by_cases hz : z = y
  · rw [if_pos hz, hz, hy]
    exact ⟨nofun, nofun⟩
  · rw [if_neg hz]

theorem Coherent.drop (h : d.Coherent s) {y : SlotName} (hy : s.slot? y = some .inProgress)
    (loops : List (String × Int)) : d.Coherent ((s.drop y).inLoops loops) := by
  refine h.of_evaluated fun z v => ?_
  change (s.drop y).slot? z = _ ↔ _
  rw [Scope.slot?_drop]
  by_cases hz : z = y
  · rw [if_pos hz, hz, hy]
    exact ⟨nofun, nofun⟩
  · rw [if_neg hz]

/-- What is apart from a scope where the value of a slot was kept is so from the scope before. -/
theorem apart_of_keep {v : Json} {loops : List (String × Int)}
    (h : t.Apart ((d.keep x v s).inLoops loops)) (hx : s.slot? x.slot = some .inProgress) : t.Apart s := by
  intro z hz u hu
  have hne : z ≠ x.slot := by
    rintro rfl
    rw [hx] at hu
    cases hu
  refine h z hz u ?_
  change (d.keep x v s).slot? z = _
  rw [d.slot?_keep, if_neg hne]
  exact hu

/-- A value may be kept that a deployment gives that keeps none. -/
theorem Coherent.keep (h : d.Coherent s) (hx : s.slot? x.slot = some .inProgress) {v : Json}
    {loops : List (String × Int)}
    (hv : ∀ y, y.slot = x.slot → ∀ t depth, t.Uncached → t.Apart ((d.keep x v s).inLoops loops) →
      t.free d.declared < depth → (outcome ((d.uncachedAt depth).answer y) t).2.Unaided →
        (outcome ((d.uncachedAt depth).answer y) t).1 = .ok v) :
    d.Coherent ((d.keep x v s).inLoops loops) := by
  intro y w hw t depth ht ha hfree hun
  change (d.keep x v s).slot? y.slot = _ at hw
  rw [d.slot?_keep] at hw
  by_cases hy : y.slot = x.slot
  · rw [if_pos hy] at hw
    cases hw
    exact hv y hy t depth ht ha hfree hun
  · rw [if_neg hy] at hw
    exact h y w hw t depth ht (apart_of_keep ha hx) hfree hun

/-- Steps may change a scope so that every value is still what a deployment gives that keeps none. -/
theorem coherent_frame (d : Deployment) : Frame fun s t => d.Coherent s → d.Coherent t where
  refl _ hs := hs
  trans _ _ _ h k hs := k (h hs)

/-- Steps of a deployment that keeps values, and of one that keeps none and knows of no resource. The second gives
what the first does where nothing is in progress that has a value after the first, if it makes no identifier and
asks for no resource. If they are exact it fails too with what the first fails with, where the same slots are in
progress and there is room. -/
structure Tracks (d : Deployment) (exact : Prop) (depth n : Nat) {ε : Type}
    (m m' : ExceptT ε (StateM Scope) α) : Prop where
  undisturbed : d.steady_undisturbed.discipline.Obeys m
  kept : (changing Scope.keptFrame).Obeys m'
  coherent : (changing (d.coherent_frame)).Obeys m
  ok {s t : Scope} : d.Coherent s → t.Uncached → t.loops = s.loops → t.Apart (outcome m s).2 →
    t.free d.declared < n → (outcome m' t).2.Unaided → ∀ a, (outcome m s).1 = .ok a → (outcome m' t).1 = .ok a
  error {s t : Scope} : exact → d.Coherent s → t.Uncached → t.loops = s.loops → t.Apart (outcome m s).2 →
    t.free d.declared < n → (outcome m' t).2.Unaided → (∀ x, t.running x = s.running x) →
    s.free d.declared < depth → ∀ e, (outcome m s).1 = .error e → (outcome m' t).1 = .error e

namespace Tracks

variable {exact : Prop} {depth n : Nat} {ε β : Type} {m m' : ExceptT ε (StateM Scope) α}

theorem pure (a : α) :
    d.Tracks exact depth n (pure a : ExceptT ε (StateM Scope) α) (pure a) where
  undisturbed := Discipline.obeys_pure _ a
  kept := Discipline.obeys_pure _ a
  coherent := Discipline.obeys_pure _ a
  ok _ _ _ _ _ _ _ h := h
  error _ _ _ _ _ _ _ _ _ _ h := nomatch h

/-- After the first of two steps the second begins where it is tracked. -/
theorem after (hm : d.Tracks exact depth n m m') {s t s₁ : Scope} {a : α} (hs : d.Coherent s)
    (ht : t.Uncached) (hl : t.loops = s.loops) (ho : outcome m s = (.ok a, s₁)) (ha : t.Apart s₁)
    (hfree : t.free d.declared < n) (hun : (outcome m' t).2.Unaided) :
    d.Coherent s₁ ∧ s.Undisturbed s₁ ∧ ∃ t₁, outcome m' t = (.ok a, t₁) ∧ t.Kept t₁ ∧ t₁.Uncached ∧
      t₁.loops = s₁.loops ∧ t₁.free d.declared < n := by
  have hs₁ : s.Undisturbed s₁ := by
    have h := hm.undisturbed s
    rwa [ho] at h
  have hc₁ : d.Coherent s₁ := by
    have h := hm.coherent s hs
    rwa [ho] at h
  have hk : t.Kept (outcome m' t).2 := hm.kept t
  have hok := hm.ok hs ht hl (by rw [ho]; exact ha) hfree hun a (by rw [ho])
  refine ⟨hc₁, hs₁, (outcome m' t).2, Prod.ext hok rfl, hk, hk.uncached ht, ?_, ?_⟩
  · exact hk.loops.trans (hl.trans hs₁.loops.symm)
  · rwa [Scope.free_congr hk.running]

theorem unaided_first {f' : α → ExceptT ε (StateM Scope) β} (hf : ∀ a, (changing Scope.keptFrame).Obeys (f' a))
    {t : Scope} (h : (outcome (m' >>= f') t).2.Unaided) : (outcome m' t).2.Unaided := by
  rw [outcome_bind] at h
  rcases ho : outcome m' t with ⟨e | a, t₁⟩
  · rw [ho] at h
    exact h
  · rw [ho] at h
    exact (hf a t₁).unaided h

theorem bind {f f' : α → ExceptT ε (StateM Scope) β} (hm : d.Tracks exact depth n m m')
    (hf : ∀ a, d.Tracks exact depth n (f a) (f' a)) :
    d.Tracks exact depth n (m >>= f) (m' >>= f') where
  undisturbed := hm.undisturbed.bind fun a => (hf a).undisturbed
  kept := hm.kept.bind fun a => (hf a).kept
  coherent := hm.coherent.bind fun a => (hf a).coherent
  ok {s t} hs ht hl ha hfree hun b hb := by
    obtain ⟨a, s₁, ho, hb'⟩ := outcome_bind_eq_ok.mp (Prod.ext hb rfl)
    have hbind : outcome (m >>= f) s = outcome (f a) s₁ := by rw [outcome_bind, ho]
    rw [hbind] at ha hb
    have ha₁ : t.Apart s₁ := ha.of_undisturbed ((hf a).undisturbed s₁)
    have hun₁ := unaided_first (fun a => (hf a).kept) hun
    obtain ⟨hc₁, -, t₁, ho', hk, ht₁, hl₁, hfree₁⟩ := hm.after hs ht hl ho ha₁ hfree hun₁
    have hbind' : outcome (m' >>= f') t = outcome (f' a) t₁ := by rw [outcome_bind, ho']
    rw [hbind'] at hun ⊢
    exact (hf a).ok hc₁ ht₁ hl₁ (ha.of_kept hk) hfree₁ hun b hb
  error {s t} hexact hs ht hl ha hfree hun hrun hroom e he := by
    have hun₁ := unaided_first (fun a => (hf a).kept) hun
    rcases outcome_bind_eq_error.mp (Prod.ext he rfl) with ho | ⟨a, s₁, ho, -⟩
    · have hbind : (outcome (m >>= f) s).2 = (outcome m s).2 := by rw [ho]
      rw [hbind] at ha
      have hfails := hm.error hexact hs ht hl ha hfree hun₁ hrun hroom e (by rw [ho])
      exact congrArg Prod.fst (outcome_bind_eq_error.mpr (.inl (Prod.ext hfails rfl)))
    · have hbind : outcome (m >>= f) s = outcome (f a) s₁ := by rw [outcome_bind, ho]
      rw [hbind] at ha he
      have ha₁ : t.Apart s₁ := ha.of_undisturbed ((hf a).undisturbed s₁)
      obtain ⟨hc₁, hs₁, t₁, ho', hk, ht₁, hl₁, hfree₁⟩ := hm.after hs ht hl ho ha₁ hfree hun₁
      have hbind' : outcome (m' >>= f') t = outcome (f' a) t₁ := by rw [outcome_bind, ho']
      have hrun₁ (x : SlotName) : t₁.running x = s₁.running x := by
        rw [hk.running, hs₁.running]
        exact hrun x
      have hroom₁ : s₁.free d.declared < depth := by rwa [Scope.free_congr hs₁.running]
      rw [hbind'] at hun ⊢
      exact (hf a).error hexact hc₁ ht₁ hl₁ (ha.of_kept hk) hfree₁ hun hrun₁ hroom₁ e he

/-- A step that touches neither slots nor loops, and whose result depends on the loops at most. -/
theorem of_kept (hm : (changing Scope.keptFrame).Obeys m) (hp : ∀ s, (outcome m s).2.pointer = s.pointer)
    (hm' : (changing Scope.keptFrame).Obeys m')
    (hok : ∀ s t, t.loops = s.loops → (outcome m' t).2.Unaided → ∀ a, (outcome m s).1 = .ok a →
      (outcome m' t).1 = .ok a)
    (herror : exact → ∀ s t, t.loops = s.loops → (outcome m' t).2.Unaided → ∀ e, (outcome m s).1 = .error e →
      (outcome m' t).1 = .error e) : d.Tracks exact depth n m m' where
  undisturbed s := by
    refine ⟨(hm s).loops, hp s, ?_, ?_⟩
    · rw [(hm s).parameters]
      exact .refl _
    · rw [(hm s).vars]
      exact .refl _
  kept := hm'
  coherent s hs := hs.of_evaluated fun x v => by rw [(hm s).slot?]
  ok {s t} _ _ hl _ _ hun := hok s t hl hun
  error {s t} hexact _ _ hl _ _ hun _ _ := herror hexact s t hl hun

end Tracks

def caching (d : Deployment) (exact : Prop) (depth n : Nat) (ε : Type) : Accord ε Scope where
  Agree := d.Tracks exact depth n
  agree_pure := .pure
  agree_bind := .bind

namespace caching

variable {exact : Prop} {depth n : Nat}

theorem evaluates : (d.caching exact depth n ExprError).Evaluates where
  lift _ := .of_kept (fun s => .refl s) (fun _ => rfl) (fun s => .refl s) (fun _ _ _ _ _ h => h)
    fun _ _ _ _ _ _ h => h

/-- A step at a place, which is the same place if the steps are exact. -/
theorem atPlace {m m' : EvalM Scope α} {p q : String} (hpq : exact → p = q)
    (hm : d.Tracks exact depth n m m') :
    d.Tracks exact depth n (ScopeM.atPlace p m) (ScopeM.atPlace q m') where
  undisturbed := d.steady_undisturbed.surrounds.atPlace p hm.undisturbed
  kept t := by
    have h := hm.kept { t with pointer := q }
    exact ⟨h.parameters, h.vars, h.loops, h.unaided⟩
  coherent s hs := hm.coherent { s with pointer := p } hs
  ok {s t} hs ht hl ha hfree hun a h := by
    rw [ScopeM.outcome_atPlace] at h ⊢
    have hok := hm.ok (s := { s with pointer := p }) (t := { t with pointer := q }) hs ht hl ha hfree hun a
    exact mapError_eq_ok.mpr (hok (mapError_eq_ok.mp h))
  error {s t} hexact hs ht hl ha hfree hun hrun hroom e h := by
    rw [ScopeM.outcome_atPlace] at h ⊢
    obtain ⟨e', he, rfl⟩ := mapError_eq_error.mp h
    rw [hpq hexact] at he ⊢
    have hfails := hm.error (s := { s with pointer := q }) (t := { t with pointer := q }) hexact hs ht hl
      (by rw [hpq hexact] at ha; exact ha) hfree hun hrun hroom e' he
    exact mapError_eq_error.mpr ⟨e', hfails, rfl⟩

theorem withLoop {m m' : ScopeM α} (name : String) (i : Nat) (hm : d.Tracks exact depth n m m') :
    d.Tracks exact depth n (ScopeM.withLoop name i m) (ScopeM.withLoop name i m') where
  undisturbed := d.steady_undisturbed.surrounds.withLoop name i hm.undisturbed
  kept t := by
    have h := hm.kept { t with loops := (name, (i : Int)) :: t.loops }
    exact ⟨h.parameters, h.vars, congrArg List.tail h.loops, h.unaided⟩
  coherent s hs := hm.coherent { s with loops := (name, (i : Int)) :: s.loops } hs
  ok {s t} hs ht hl :=
    hm.ok (s := { s with loops := (name, (i : Int)) :: s.loops })
      (t := { t with loops := (name, (i : Int)) :: t.loops }) hs ht (congrArg (List.cons (name, (i : Int))) hl)
  error {s t} hexact hs ht hl :=
    hm.error (s := { s with loops := (name, (i : Int)) :: s.loops })
      (t := { t with loops := (name, (i : Int)) :: t.loops }) hexact hs ht
      (congrArg (List.cons (name, (i : Int))) hl)

theorem encloses : (d.caching exact depth n ExpandError).Encloses (d.caching exact depth n ExprError)
    fun p q => exact → p = q where
  inside := evaluates
  append _ h hexact := congrArg (· ++ _) (h hexact)
  lift {α f p q} hpq _ hf := by
    refine .of_kept (fun s => .refl s) (fun _ => rfl) (fun s => .refl s) (fun _ _ _ _ a ha => ?_)
      fun hexact _ _ _ _ e he => ?_
    · change f p = .ok a at ha
      exact toOption_eq_some.mp ((hf q p).trans (toOption_eq_some.mpr ha))
    · change f p = .error e at he
      rw [hpq hexact] at he
      exact he
  atPlace hpq hm := atPlace hpq hm
  withLoop name i hm := withLoop name i hm
  refl _ _ := rfl
  toEval {α m m'} hm :=
    { undisturbed := hm.undisturbed
      kept := hm.kept
      coherent := hm.coherent
      ok hs ht hl ha hfree hun a h := by
        rw [ScopeM.outcome_toEval] at h ⊢
        exact mapError_eq_ok.mpr (hm.ok hs ht hl ha hfree hun a (mapError_eq_ok.mp h))
      error hexact hs ht hl ha hfree hun hrun hroom e h := by
        rw [ScopeM.outcome_toEval] at h ⊢
        obtain ⟨e', he, rfl⟩ := mapError_eq_error.mp h
        exact mapError_eq_error.mpr ⟨e', hm.error hexact hs ht hl ha hfree hun hrun hroom e' he, rfl⟩ }

end caching
end Deployment
end ResourceTemplate
