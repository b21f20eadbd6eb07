import ResourceTemplate.Catalog
import ResourceTemplate.Proofs.Accord
import ResourceTemplate.Proofs.Calls
import ResourceTemplate.Proofs.Catalog.Texts

namespace ResourceTemplate

/-- What a host shows of its surroundings, but for the deployment itself. -/
structure Sight where
  subscription : Json
  resourceGroup : Json
  tenant : Json
  environment : Json
  scopeLevel : ScopeLevel
  utcNow : Instant

variable {σ α : Type}

def Host.sight (h : Host σ) (s : σ) : Sight where
  subscription := h.subscription s
  resourceGroup := h.resourceGroup s
  tenant := h.tenant s
  environment := h.environment
  scopeLevel := h.scopeLevel s
  utcNow := h.utcNow s

def Shown (f : Host σ → σ → α) : Prop := ∀ h k s t, h.sight s = k.sight t → f h s = f k t

variable {A : Accord ExprError σ} {C : Callees} {S : Discipline ExprError σ}

/-- Two hosts whose answers agree, those that only some functions ask for as far as these are
selected. -/
structure HostsAgree (A : Accord ExprError σ) (C : Callees) (h k : Host σ) : Prop where
  parameterValue : ∀ name, A.Agree (h.parameterValue name) (k.parameterValue name)
  variableValue : ∀ name, A.Agree (h.variableValue name) (k.variableValue name)
  copyIndex : ∀ loop, A.Agree (Host.ask (h.copyIndex loop)) (Host.ask (k.copyIndex loop))
  reference : C.builtIn "reference" → ∀ target full,
    A.Agree (h.reference target full) (k.reference target full)
  resourceInfo : C.builtIn "resourceinfo" → ∀ target,
    A.Agree (h.resourceInfo target) (k.resourceInfo target)
  userFunction : ∀ ns name, C.defined ns name → ∀ arguments,
    A.Agree (h.userFunction ns name arguments) (k.userFunction ns name arguments)
  deployment : C.builtIn "deployment" → A.Agree (Host.read h.deployment) (Host.read k.deployment)
  newGuid : C.builtIn "newguid" → A.Agree (Host.act h.newGuid) (Host.act k.newGuid)
  remark : ∀ text, A.Agree (h.remark text) (k.remark text)
  read : ∀ {β : Type} {f : Host σ → σ → β}, Shown f → A.Agree (Host.read (f h)) (Host.read (f k))

/-- What depends on nothing but what a host shows agrees on hosts that show the same in all states. -/
theorem Shown.agree_read {f : Host σ → σ → α} (hf : Shown f) {h k : Host σ}
    (hs : ∀ s t, h.sight s = k.sight t) (s₀ : σ) : A.Agree (Host.read (f h)) (Host.read (f k)) := by
  have hk (s : σ) : f k s = f h s₀ := (hf h k s₀ s (hs s₀ s)).symm
  have hh (s : σ) : f h s = f h s₀ := (hf h k s s₀ (hs s s₀)).trans (hk s₀)
  have read (g : σ → α) (hg : ∀ s, g s = f h s₀) : Host.read g = pure (f h s₀) := by
    rw [funext hg]
    rfl
  rw [read _ hh, read _ hk]
  exact .pure _

theorem HostsAgree.same (h : Host σ) : HostsAgree (Accord.same ExprError σ) C h h where
  parameterValue _ := rfl
  variableValue _ := rfl
  copyIndex _ := rfl
  reference _ _ _ := rfl
  resourceInfo _ _ := rfl
  userFunction _ _ _ _ := rfl
  deployment _ := rfl
  newGuid _ := rfl
  remark _ := rfl
  read _ := rfl

structure HostObeys (S : Discipline ExprError σ) (h : Host σ) : Prop where
  parameterValue : ∀ name, S.Obeys (h.parameterValue name)
  variableValue : ∀ name, S.Obeys (h.variableValue name)
  copyIndex : ∀ loop, S.Obeys (Host.ask (h.copyIndex loop))
  reference : ∀ target full, S.Obeys (h.reference target full)
  resourceInfo : ∀ target, S.Obeys (h.resourceInfo target)
  userFunction : ∀ ns name arguments, S.Obeys (h.userFunction ns name arguments)
  newGuid : S.Obeys (Host.act h.newGuid)
  remark : ∀ text, S.Obeys (h.remark text)

/-- A host whose answers obey a discipline agrees with itself. -/
theorem HostObeys.agrees {h : Host σ} (hh : HostObeys S h) : HostsAgree S.alone C h h where
  parameterValue name := ⟨rfl, hh.parameterValue name⟩
  variableValue name := ⟨rfl, hh.variableValue name⟩
  copyIndex loop := ⟨rfl, hh.copyIndex loop⟩
  reference _ target full := ⟨rfl, hh.reference target full⟩
  resourceInfo _ target := ⟨rfl, hh.resourceInfo target⟩
  userFunction ns name _ arguments := ⟨rfl, hh.userFunction ns name arguments⟩
  deployment _ := ⟨rfl, .read _⟩
  newGuid _ := ⟨rfl, hh.newGuid⟩
  remark text := ⟨rfl, hh.remark text⟩
  read _ := ⟨rfl, .read _⟩

theorem Instant.isRoundTrip_of_format? {t : Instant} {pattern : String} (h : t.format? pattern = none) :
    isRoundTrip pattern = true := by
  unfold format? at h
  split at h
  · assumption
  · cases h

namespace Catalog

namespace Surroundings

theorem definite_list (a : Args) : Definite (list a) :=
  (a.definite_expect 2 (some 3)).bind fun _ => (a.definite_string 0).bind fun _ => .pure _

theorem definite_build (function scope resourceType : String) (names : List String) :
    Definite (build function scope resourceType names) := by
  unfold build
  split <;> simp [ResourceId.Fault.toExprError]

theorem definite_typePosition (a : Args) (texts : List String) (maxLeading : Nat) :
    Definite (typePosition a texts maxLeading) := by
  unfold typePosition
  split <;> simp

theorem definite_tenantResourceId (a : Args) : Definite (tenantResourceId a) :=
  (a.definite_expect 2 none).bind fun _ => a.definite_strings.bind fun _ => definite_build _ _ _ _

theorem definite_extensionResourceId (a : Args) : Definite (extensionResourceId a) :=
  (a.definite_expect 3 none).bind fun _ => a.definite_strings.bind fun _ => definite_build _ _ _ _

theorem definite_pureFunctions : ∀ f ∈ pureFunctions, ∀ a, Definite (f.2 a) := by
  simp only [pureFunctions, List.forall_mem_cons]
  exact ⟨definite_extensionResourceId, definite_tenantResourceId, by simp⟩

theorem definite_loopAndOffset (a : Args) : Definite (loopAndOffset a) := by
  refine (a.definite_expect 0 (some 2)).bind fun _ => ?_
  split
  · exact .pure _
  · exact .pure _
  · exact (a.definite_int 0).bind fun _ => .pure _
  · exact (a.definite_string 0).bind fun _ => (a.definite_int 1).bind fun _ => .pure _

theorem shown_currentSubscription : Shown (currentSubscription : Host σ → σ → String) := by
  intro h k s t e
  have hs : h.subscription s = k.subscription t := congrArg Sight.subscription e
  unfold currentSubscription
  rw [hs]

theorem shown_scopeOf (texts : List String) (position : Nat) :
    Shown fun (h : Host σ) s => scopeOf h s texts position := by
  intro h k s t e
  have hs : currentSubscription h s = currentSubscription k t := shown_currentSubscription h k s t e
  have hg : h.resourceGroup s = k.resourceGroup t := congrArg Sight.resourceGroup e
  have hl : h.scopeLevel s = k.scopeLevel t := congrArg Sight.scopeLevel e
  change scopeOf h s texts position = scopeOf k t texts position
  unfold scopeOf currentGroup
  rw [hs, hg, hl]

def Asks (A : Accord ExprError σ) (C : Callees) (f : Asking σ) : Prop :=
  ∀ h k a, HostsAgree A C h k → A.Agree (f h a) (f k a)

section
variable (hA : A.Evaluates)
include hA

theorem asks_reading {f : Host σ → σ → Json} (hf : Shown f) : Asks A C (reading f) :=
  fun _ _ a hk => (hA.lift (a.definite_exactly 0)).bind fun _ => hk.read hf

theorem asks_deployment (hc : C.builtIn "deployment") : Asks A C (reading fun h => h.deployment) :=
  fun _ _ a hk => (hA.lift (a.definite_exactly 0)).bind fun _ => hk.deployment hc

theorem asks_parameterNamed : Asks A C parameterNamed := fun _ _ a hk =>
  (hA.lift (a.definite_exactly 1)).bind fun _ =>
    (hA.lift (a.definite_string 0)).bind hk.parameterValue

theorem asks_variableNamed : Asks A C variableNamed := fun _ _ a hk =>
  (hA.lift (a.definite_exactly 1)).bind fun _ =>
    (hA.lift (a.definite_string 0)).bind hk.variableValue

theorem asks_copyIndex : Asks A C copyIndex := by
  intro h k a hk
  refine (hA.lift (definite_loopAndOffset a)).bind fun lo =>
    (hk.copyIndex lo.1).bind fun index => ?_
  split
  · exact .pure _
  · exact hA.throw rfl

theorem asks_newGuid (hc : C.builtIn "newguid") : Asks A C newGuid := fun _ _ a hk =>
  (hA.lift (a.definite_exactly 0)).bind fun _ =>
    (hk.newGuid hc).bind fun _ => .pure _

theorem agree_timeIn {h k : Host σ} (hk : HostsAgree A C h k) (pattern : String) :
    A.Agree (timeIn h pattern) (timeIn k pattern) := by
  have hnow := hk.read (f := fun h s => h.utcNow s) fun _ _ _ _ e => congrArg Sight.utcNow e
  refine hnow.bind fun now => ?_
  cases hf : now.format? pattern with
  | some text => exact .pure _
  | none => exact hA.throw (Instant.isRoundTrip_of_format? hf)

theorem asks_utcNow : Asks A C utcNow := by
  intro h k a hk
  refine (hA.lift (a.definite_expect 0 (some 1))).bind fun _ => ?_
  split
  · exact agree_timeIn hA hk _
  · exact agree_timeIn hA hk _
  · exact hA.throw rfl

theorem asks_resourceId : Asks A C resourceId := fun _ _ a hk =>
  (hA.lift (a.definite_expect 2 none)).bind fun _ =>
    (hA.lift a.definite_strings).bind fun texts =>
      (hA.lift (definite_typePosition a texts 2)).bind fun position =>
        (hk.read (shown_scopeOf texts position)).bind fun _ => hA.lift (definite_build _ _ _ _)

theorem asks_subscriptionResourceId : Asks A C subscriptionResourceId := by
  intro h k a hk
  refine (hA.lift (a.definite_expect 2 none)).bind fun _ =>
    (hA.lift a.definite_strings).bind fun texts =>
      (hA.lift (definite_typePosition a texts 1)).bind fun position => ?_
  dsimp only
  split
  · exact (Accord.Agree.pure _).bind fun _ => hA.lift (definite_build _ _ _ _)
  · exact (hk.read shown_currentSubscription).bind fun _ => hA.lift (definite_build _ _ _ _)

theorem asks_reference (hc : C.builtIn "reference") : Asks A C reference := fun _ _ a hk =>
  (hA.lift (a.definite_expect 1 (some 3))).bind fun _ =>
    (hA.lift (a.definite_string 0)).bind fun target => hk.reference hc target _

theorem asks_resourceInfo (hc : C.builtIn "resourceinfo") : Asks A C resourceInfo := fun _ _ a hk =>
  (hA.lift (a.definite_exactly 1)).bind fun _ =>
    (hA.lift (a.definite_string 0)).bind (hk.resourceInfo hc)

theorem asks_functions : ∀ f ∈ functions, C.builtIn f.1 → Asks A C f.2 := by
  simp only [functions, List.forall_mem_cons]
  exact ⟨fun _ => asks_copyIndex hA, asks_deployment hA,
    fun _ => asks_reading hA fun _ _ _ _ => congrArg Sight.environment, asks_newGuid hA,
    fun _ => asks_parameterNamed hA, asks_reference hA,
    fun _ => asks_reading hA fun _ _ _ _ => congrArg Sight.resourceGroup,
    fun _ => asks_resourceId hA, asks_resourceInfo hA,
    fun _ => asks_reading hA fun _ _ _ _ => congrArg Sight.subscription,
    fun _ => asks_subscriptionResourceId hA,
    fun _ => asks_reading hA fun _ _ _ _ => congrArg Sight.tenant,
    fun _ => asks_utcNow hA, fun _ => asks_variableNamed hA, by simp⟩

end
end Surroundings

theorem definite_pureFunctions : ∀ f ∈ pureFunctions, ∀ a, Definite (f.2 a) := by
  unfold pureFunctions
  simp only [List.mem_append]
  rintro f ((((hf | hf) | hf) | hf) | hf)
  · exact Logic.definite_functions f hf
  · exact Arithmetic.definite_functions f hf
  · exact Collections.definite_functions f hf
  · exact Texts.definite_functions f hf
  · exact Surroundings.definite_pureFunctions f hf

theorem mem_of_lookup {α : Type} {xs : List (String × α)} {key : String} {a : α}
    (h : xs.lookup key = some a) : (key, a) ∈ xs := by
  obtain ⟨before, after, rfl, -⟩ := List.lookup_eq_some_iff.mp h
  exact List.mem_append_right before List.mem_cons_self

def Entry.Agrees (A : Accord ExprError σ) (C : Callees) : Entry σ → Prop
  | .value f => ∀ a, Definite (f a)
  | .asking f => Surroundings.Asks A C f
  | .special _ => True

theorem lookup?_agrees (hA : A.Evaluates) {name : String} {entry : Entry σ}
    (hc : C.builtIn (Name.fold name)) (h : lookup? σ name = some entry) : entry.Agrees A C := by
  unfold lookup? at h
  extract_lets key at h
  split at h
  · cases h
    trivial
  · split at h
    · rename_i f hf
      cases h
      exact definite_pureFunctions _ (mem_of_lookup hf)
    · split at h
      · rename_i f hf
        cases h
        exact Surroundings.asks_functions hA _ (mem_of_lookup hf) hc
      · split at h
        · cases h
          exact Surroundings.definite_list
        · cases h

end Catalog
end ResourceTemplate
