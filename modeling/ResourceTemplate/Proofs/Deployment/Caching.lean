import ResourceTemplate.Proofs.Calls
import ResourceTemplate.Proofs.Deployment.Asking
import ResourceTemplate.Proofs.Deployment.Uncached

namespace ResourceTemplate

open Expr (CallSite)

/-! Templates that ask for nothing else. -/

/-- The built-in functions that find resources or make identifiers, by their names in small letters. -/
def externalFunctions : List String := ["reference", "resourceinfo", "newguid"]

namespace Template

variable {t : Template} {cs : List CallSite}

def SelfContained (t : Template) (cs : List CallSite) : Prop := ∀ name ∈ externalFunctions, ¬ t.Reaches name cs

def internalCallees (t : Template) : Callees := t.avoiding externalFunctions

theorem SelfContained.cover (h : t.SelfContained cs) : t.internalCallees.Cover cs := Avoids.cover h

/-- Whether the variables and the defaults of parameters reach no function that finds resources or makes
identifiers. -/
structure Internal (t : Template) : Prop where
  vars : ∀ e ∈ t.vars, t.SelfContained e.2.calls
  defaults : ∀ p ∈ t.parameters, ∀ v, p.default = some v → t.SelfContained v.calls

/-- Whether no two variables that are given as values have one name up to case. -/
def DistinctNames (t : Template) : Prop :=
  ((t.vars.filter fun e => !Name.same e.1 "copy").map fun e => Name.fold e.1).Nodup

instance (t : Template) : Decidable t.DistinctNames := inferInstanceAs (Decidable (List.Nodup _))

theorem DistinctNames.eq_of_fold (h : t.DistinctNames) {e e' : String × Json} (he : e ∈ t.vars)
    (he' : e' ∈ t.vars) (hn : Name.fold e.1 = Name.fold e'.1) (hc : Name.same e.1 "copy" = false) :
    e = e' := by
  have hc' : Name.same e'.1 "copy" = false := by
    unfold Name.same at hc ⊢
    rwa [← hn]
  exact List.inj_on_of_nodup_map h (List.mem_filter.mpr ⟨he, by simp [hc]⟩)
    (List.mem_filter.mpr ⟨he', by simp [hc']⟩) hn

theorem DistinctNames.getNamed? (h : t.DistinctNames) {name name' : String}
    (hn : Name.fold name' = Name.fold name) (hc : Name.same name "copy" = false) :
    Entries.getNamed? t.vars name' = Entries.getNamed? t.vars name := by
  have found {n n' : String} {v : Json} (hn : Name.fold n' = Name.fold n) (hc : Name.same n "copy" = false)
      (hv : Entries.getNamed? t.vars n = some v) : Entries.getNamed? t.vars n' = some v := by
    obtain ⟨k, hk, hkn⟩ := Entries.exists_of_getNamed? hv
    obtain ⟨w, hw⟩ := Entries.exists_getNamed?_of_mem hk (hkn.trans hn.symm)
    obtain ⟨k', hk', hkn'⟩ := Entries.exists_of_getNamed? hw
    have hck : Name.same k "copy" = false := by
      unfold Name.same at hc ⊢
      rwa [hkn]
    have he := h.eq_of_fold hk hk' (hkn.trans (hn.symm.trans hkn'.symm)) hck
    cases he
    exact hw
  have hc' : Name.same name' "copy" = false := by
    unfold Name.same at hc ⊢
    rwa [hn]
  cases hv : Entries.getNamed? t.vars name with
  | some v => exact found hn hc hv
  | none =>
    cases hv' : Entries.getNamed? t.vars name' with
    | none => rfl
    | some w =>
      rw [found hn.symm hc' hv'] at hv
      cases hv

end Template

/-! Origins. -/

namespace Deployment

variable {α : Type} {d : Deployment} {l k : Ledger}

theorem variableSource?_congr (h : d.template.DistinctNames) {name name' : String}
    (hn : Name.fold name' = Name.fold name) : d.variableSource? name' = d.variableSource? name := by
  have same (a : String) : Name.same name' a = Name.same name a ∧ Name.same a name' = Name.same a name := by
    unfold Name.same
    rw [hn]
    exact ⟨rfl, rfl⟩
  unfold variableSource?
  rw [(same "copy").1]
  cases hc : Name.same name "copy" with
  | true => rfl
  | false =>
    rw [h.getNamed? hn hc]
    simp only [same]

/-- Requests of one slot have one origin, up to the spelling of the name. -/
theorem near_origin (h : d.template.DistinctNames) {x y : Request} (hxy : y.slot = x.slot) :
    (d.origin x).Near (fun p q => False → p = q) (d.origin y) ∨
      ∃ e e', d.origin x = .given (.error e) ∧ d.origin y = .given (.error e') := by
  obtain ⟨table, name⟩ := x
  obtain ⟨table', name'⟩ := y
  have htable : table' = table := congrArg Prod.fst hxy
  have hn : Name.fold name' = Name.fold name := congrArg Prod.snd hxy
  subst htable
  unfold origin
  cases table' with
  | parameters =>
    have hp : d.template.parameter? name' = d.template.parameter? name := by
      unfold Template.parameter? Name.same
      rw [hn]
    dsimp only
    rw [hp, hn]
    cases d.template.parameter? name with
    | none => exact .inr ⟨_, _, rfl, rfl⟩
    | some p => exact .inl (.refl (fun _ _ => rfl) _)
  | vars =>
    dsimp only
    rw [variableSource?_congr h hn]
    cases d.variableSource? name with
    | none => exact .inr ⟨_, _, rfl, rfl⟩
    | some source =>
      cases source with
      | value v => exact .inl (.value v nofun)
      | copy entry => exact .inl (.copy entry)

/-- What is computed for a template that asks for nothing else calls nothing else. -/
theorem cover_origin_internal (h : d.template.Internal) (x : Request) :
    (d.origin x).Cover d.template.internalCallees :=
  cover_origin (fun e he => (h.vars e he).cover) (fun p hp v hv => (h.defaults p hp v hv).cover) x

/-! Requests. -/

section
variable {exact : Prop} {depth n : Nat}

theorem outcome_resolve_void (view : ResourceValue → Json) (target : String) (s : Scope) :
    outcome (d.resolve (.ofDeclarations []) view target) s =
      (.ok Placeholder.resource, s.report d.identity.name s.pointer (.externalReference target)) := by
  have hfind : (Ledger.ofDeclarations []).find target = .ok .external := by
    unfold Ledger.find
    split <;> rfl
  unfold resolve
  rw [hfind]
  rfl

theorem accords_caching :
    d.Accords l (.ofDeclarations []) (d.caching exact depth n ExprError) .all where
  evaluates := caching.evaluates
  copyIndex loop := by
    have same {s t : Scope} (hl : t.loops = s.loops) : t.copyIndex loop = s.copyIndex loop := by
      unfold Scope.copyIndex
      rw [hl]
    exact .of_kept (fun s => .refl s) (fun _ => rfl) (fun s => .refl s)
      (fun _ _ hl _ _ h => (same hl).trans h) fun _ _ _ hl _ _ h => (same hl).trans h
  newGuid _ := by
    -- an identifier is never made unaided
    have made (s : Scope) : ¬ (outcome (Host.act d.newGuid) s : Except ExprError String × Scope).2.Unaided :=
      fun h => Nat.succ_ne_zero s.guids h.1
    have kept (s : Scope) : s.Kept (outcome (Host.act d.newGuid) s : Except ExprError String × Scope).2 :=
      ⟨rfl, rfl, rfl, fun h => absurd h (made s)⟩
    exact .of_kept kept (fun _ => rfl) kept (fun _ t _ hu => absurd hu (made t))
      fun _ _ t _ hu => absurd hu (made t)
  remark text :=
    .of_kept (fun s => (Scope.Kept.report s _ _ _).1) (fun s => (Scope.Kept.report s _ _ _).2)
      (fun s => (Scope.Kept.report s _ _ _).1) (fun _ _ _ _ _ h => h) fun _ _ _ _ _ _ => nofun
  resolve _ view target := by
    have kept (l : Ledger) (s : Scope) : s.Kept (outcome (d.resolve l view target) s).2 ∧
        (outcome (d.resolve l view target) s).2.pointer = s.pointer := by
      obtain ⟨r, hr | hr⟩ := d.outcome_resolve l view target
      · rw [hr]
        exact ⟨.refl s, rfl⟩
      · rw [hr]
        exact Scope.Kept.report s _ _ _
    -- a resource is never asked for unaided
    have missed (t : Scope) : ¬ (outcome (d.resolve (.ofDeclarations []) view target) t).2.Unaided := by
      rw [outcome_resolve_void]
      exact Scope.not_unaided_report rfl
    exact .of_kept (fun s => (kept l s).1) (fun s => (kept l s).2) (fun s => (kept _ s).1)
      (fun _ t _ hu => absurd hu (missed t)) fun _ _ t _ hu => absurd hu (missed t)

theorem throw_caching (e : ExprError) :
    (d.caching exact depth n ExprError).Agree (throw e : EvalM Scope α) (throw e) :=
  .of_kept (fun s => .refl s) (fun _ => rfl) (fun s => .refl s) (fun _ _ _ _ _ => nofun)
    fun _ _ _ _ _ _ h => h

end

/-- A host that keeps nothing is put together from its own answers. -/
theorem uncachedAt_eq (n : Nat) :
    d.uncachedAt n = d.hostBy (.ofDeclarations []) d.callDepth (d.uncachedAt n).answer := d.hostsBy_eq _ _ _ n

theorem answer_uncachedAt (depth : Nat) (x : Request) :
    (d.uncachedAt (depth + 1)).answer x = d.uncachedRequest (d.evaluations (d.uncachedAt depth)) x :=
  d.answer_hostBy _ _ x

/-- What a free slot is computed to where nothing is kept, and with what aid. -/
theorem uncached_free (d : Deployment) (depth : Nat) {t : Scope} {x : Request} (h : t.slot? x.slot = none) :
    (outcome ((d.uncachedAt (depth + 1)).answer x) t).1 =
        (outcome ((d.evaluations (d.uncachedAt depth)).answer (d.origin x)) (t.enter x.slot)).1 ∧
      ((outcome ((d.uncachedAt (depth + 1)).answer x) t).2.Unaided ↔
        (outcome ((d.evaluations (d.uncachedAt depth)).answer (d.origin x)) (t.enter x.slot)).2.Unaided) := by
  rw [answer_uncachedAt]
  change (outcome (d.request _ x) t).1 = _ ∧ ((outcome (d.request _ x) t).2.Unaided ↔ _)
  rw [request_free h, fst_settle]
  refine ⟨rfl, ?_⟩
  rcases outcome ((d.evaluations (d.uncachedAt depth)).answer (d.origin x)) (t.enter x.slot) with ⟨e | v, u⟩
  · exact Scope.unaided_congr (Scope.aid_drop x.slot u)
  · exact Scope.unaided_congr (Scope.aid_keep d x v u)

/-! What evaluation that keeps nothing needs. -/

section
variable {R : Scope → Scope → Prop} (hF : Frame R) (hR : ∀ s t, t.aid = s.aid → R s t)
include hF hR

theorem request_keeps {E : Evaluations} {x : Request} (h : ∀ s, R s (outcome (E.answer (d.origin x)) s).2) (s : Scope) :
    R s (outcome (d.request E x) s).2 := by
  cases hslot : s.slot? x.slot with
  | some slot =>
    cases slot with
    | inProgress =>
      rw [request_running (Scope.running_iff.mpr hslot)]
      exact hF.refl s
    | evaluated v =>
      rw [request_evaluated hslot]
      exact hF.refl s
  | none =>
    have hx := hF.trans _ _ _ (hR s (s.enter x.slot) (Scope.aid_put x.slot .inProgress s)) (h (s.enter x.slot))
    rw [request_free hslot]
    generalize outcome (E.answer (d.origin x)) (s.enter x.slot) = o at hx
    obtain ⟨e | v, u⟩ := o
    · exact hF.trans _ _ _ hx (hR u _ (Scope.aid_drop x.slot u))
    · exact hF.trans _ _ _ hx (hR u _ (Scope.aid_keep d x v u))

theorem uncachedRequest_keeps {E : Evaluations} {x : Request}
    (h : ∀ s, R s (outcome (E.answer (d.origin x)) s).2) (s : Scope) :
    R s (outcome (d.uncachedRequest E x) s).2 :=
  hF.trans _ _ _ (request_keeps hF hR h s) (hR _ _ rfl)

section
variable {C : Callees} {N : Request → Prop}
  (h : d.Accords (.ofDeclarations []) (.ofDeclarations []) (changing hF).alone C)
  (hC : ∀ ns name f, C.defined ns name → d.template.function? ns name = some f → C.Cover f.output.calls)
include h hC

/-- Where nothing is kept, the evaluation of strings that call selected functions needs what is needed for what they may
ask for. -/
theorem uncached_evaluations {n : Nat} (ha : ∀ x, N x → (changing hF).Obeys ((d.uncachedAt n).answer x)) :
    (d.evaluations (d.uncachedAt n)).Agree (changing hF).alone Eq
      (fun s => TemplateString.AsksOnly N s ∧ C.Admits s) (d.evaluations (d.uncachedAt n)) := by
  have hcalls (ns name : String) (hdefined : C.defined ns name) (arguments : List Json) :
      (changing hF).Obeys (d.callFunction d.callDepth ns name arguments) :=
    (h.callFunction ⟨rfl, hF.refl⟩ hC d.callDepth hdefined arguments).2
  rw [uncachedAt_eq]
  exact evaluations_obey (hF.encloses hR fun _ _ _ => rfl) h hcalls ha

/-- So requests whose values are computed from such strings need what the primitive steps need. -/
theorem uncached_obeys
    (hN : ∀ x, N x → ∀ s ∈ (d.origin x).texts, TemplateString.AsksOnly N s ∧ C.Admits s) (n : Nat) :
    ∀ x, N x → (changing hF).Obeys ((d.uncachedAt n).answer x) := by
  have henc := hF.encloses hR fun _ _ _ => rfl
  induction n with
  | zero =>
    rintro ⟨table, name⟩ - s
    cases table <;> exact hF.refl s
  | succ n ih =>
    intro x hx
    rw [answer_uncachedAt]
    exact uncachedRequest_keeps hF hR ((uncached_evaluations hF hR h hC ih).answer henc
      (Origin.Near.refl (fun _ => rfl) (d.origin x)) (hN x hx) fun _ => d.definite_origin).2

end
end

theorem kept_uncachedAt (n : Nat) (x : Request) (t : Scope) :
    t.Kept (outcome ((d.uncachedAt n).answer x) t).2 := by
  have hF : Frame fun s t : Scope => t.Unaided → s.Unaided := ⟨fun _ => id, fun _ _ _ h k hu => h (k hu)⟩
  have hR (s t : Scope) (h : t.aid = s.aid) : t.Unaided → s.Unaided := (Scope.unaided_congr h).mp
  have haccords : d.Accords (.ofDeclarations []) (.ofDeclarations []) (changing hF).alone .all := by
    have hc : d.Accords (.ofDeclarations []) _ (d.caching False 0 0 ExprError) _ := accords_caching
    exact
      { evaluates := hF.evaluates.alone
        copyIndex := fun loop => ⟨rfl, fun s => ((hc.copyIndex loop).kept s).unaided⟩
        newGuid := fun h => ⟨rfl, fun s => ((hc.newGuid h).kept s).unaided⟩
        remark := fun text => ⟨rfl, fun s => ((hc.remark text).kept s).unaided⟩
        resolve := fun h view target => ⟨rfl, fun s => ((hc.resolve h view target).kept s).unaided⟩ }
  have hun := uncached_obeys hF hR haccords (fun _ _ _ _ _ => Callees.cover_all _) (N := fun _ => True)
    (fun x _ s hs => ⟨fun _ _ => trivial, (d.origin x).cover_all s hs⟩) n x trivial t
  cases n with
  | zero =>
    obtain ⟨table, name⟩ := x
    cases table <;> exact .refl t
  | succ n =>
    change _ → _ at hun
    refine ⟨?_, ?_, ?_, hun⟩
    all_goals rw [answer_uncachedAt]
    exacts [rfl, rfl, loops_request]

/-- A host whose evaluations agree with those of the hosts that keep nothing, at every depth. -/
def Follows (d : Deployment) (l : Ledger) (depth : Nat) : Prop :=
  ∀ exact n, HostsAgree (d.caching exact depth n ExprError) .all (d.hostAt l depth)
    (d.uncachedAt n)

section
variable {depth : Nat} (hn : d.template.DistinctNames) (hd : d.Follows l depth)
include hd

theorem Follows.answer {exact : Prop} (n : Nat) {x y : Request}
    (ho : (d.origin x).Near (fun p q => exact → p = q) (d.origin y)) :
    (d.caching exact depth n ExprError).Agree ((d.evaluations (d.hostAt l depth)).answer (d.origin x))
      ((d.evaluations (d.uncachedAt n)).answer (d.origin y)) :=
  (d.evaluations_agree caching.encloses (hd exact n)).answer caching.encloses ho (d.origin x).cover_all
    fun _ => d.definite_origin

include hn

/-- A value that is computed from scopes whose values are coherent is what is computed where nothing is kept. -/
theorem Follows.uncached {s s₁ : Scope} {x : Request} {v : Json} (hs : d.Coherent s)
    (hx : s.slot? x.slot = none)
    (hv : outcome ((d.evaluations (d.hostAt l depth)).answer (d.origin x)) (s.enter x.slot) = (.ok v, s₁))
    {y : Request} (hy : y.slot = x.slot) {t : Scope} {n : Nat} (ht : t.Uncached)
    (hfree : t.slot? y.slot = none) (ha : t.Apart s₁) (hroom : t.free d.declared < n)
    (hun : (outcome ((d.uncachedAt n).answer y) t).2.Unaided) :
    (outcome ((d.uncachedAt n).answer y) t).1 = .ok v := by
  cases n with
  | zero => omega
  | succ n =>
    have hfrom := uncached_free d n hfree
    rw [hfrom.1]
    rw [hfrom.2] at hun
    rcases near_origin hn hy with hnear | ⟨e, e', hgiven, -⟩
    · cases hc : (d.origin y).isComputed with
      | true =>
        have ha' : (t.enter y.slot).Apart s₁ := by
          have hmid := d.slot?_computation l depth x s
          rw [hv] at hmid
          rw [hy]
          exact ha.enter hmid
        have hlt := Scope.free_enter_lt (mem_declared hc) (Scope.running_of_free hfree)
        exact (hd.answer n hnear).ok (hs.enter hx) (ht.enter y.slot) rfl (by rw [hv]; exact ha')
          (by omega) hun v (by rw [hv])
      | false =>
        obtain ⟨r, hr⟩ := Origin.exists_given hc
        rw [hr] at hnear
        rw [hnear.eq_given] at hv
        rw [hr]
        exact congrArg Prod.fst hv
    · rw [hgiven] at hv
      cases hv

theorem Follows.coherent {s : Scope} (hs : d.Coherent s) (x : Request) :
    d.Coherent (outcome (d.request (d.evaluations (d.hostAt l depth)) x) s).2 := by
  cases hslot : s.slot? x.slot with
  | some slot =>
    cases slot with
    | inProgress =>
      rw [request_running (Scope.running_iff.mpr hslot)]
      exact hs
    | evaluated v =>
      rw [request_evaluated hslot]
      exact hs
  | none =>
    have hmid := d.slot?_computation l depth x s
    have hs₁ := (hd.answer 0 (Origin.Near.refl (fun _ (h : False) => h.elim) (d.origin x))).coherent
      (s.enter x.slot) (hs.enter hslot)
    rw [request_free hslot]
    rcases ho : outcome ((d.evaluations (d.hostAt l depth)).answer (d.origin x)) (s.enter x.slot)
      with ⟨e | v, s₁⟩
    · rw [ho] at hmid hs₁
      exact hs₁.drop hmid s.loops
    · rw [ho] at hmid hs₁
      refine hs₁.keep hmid fun y hy t n ht ha hroom hun => ?_
      have hrun : t.running y.slot = false := by
        rw [Bool.eq_false_iff]
        intro hr
        refine ha y.slot hr v ?_
        change (d.keep x v s₁).slot? y.slot = _
        rw [d.slot?_keep, if_pos hy]
      exact hd.uncached hn hs hslot ho hy ht (ht.slot? hrun) (apart_of_keep ha hmid) hroom hun

omit hn in
/-- A value that cannot be computed fails alike where nothing is kept. -/
theorem Follows.error_of_free {s t : Scope} {x : Request} {n : Nat} (hs : d.Coherent s) (ht : t.Uncached)
    (hrun : ∀ y, t.running y = s.running y) (hslot : s.slot? x.slot = none)
    (hroom : s.free d.declared < depth + 1) (hroom' : t.free d.declared < n + 1)
    (hun : (outcome ((d.uncachedAt (n + 1)).answer x) t).2.Unaided) {e : ExprError}
    (he : (outcome ((d.evaluations (d.hostAt l depth)).answer (d.origin x)) (s.enter x.slot)).1 = .error e) :
    (outcome ((d.uncachedAt (n + 1)).answer x) t).1 = .error e := by
  have hfree := Scope.running_of_free hslot
  have hfree' : t.running x.slot = false := (hrun _).trans hfree
  have hfrom := uncached_free d n (ht.slot? hfree')
  rw [hfrom.1]
  rw [hfrom.2] at hun
  cases hc : (d.origin x).isComputed with
  | true =>
    have hlt := Scope.free_enter_lt (mem_declared hc) hfree
    have hlt' := Scope.free_enter_lt (mem_declared hc) hfree'
    have hrun' (y : SlotName) : (t.enter x.slot).running y = (s.enter x.slot).running y := by
      rw [Scope.running_enter, Scope.running_enter, hrun]
    have ha : (t.enter x.slot).Apart
        (outcome ((d.evaluations (d.hostAt l depth)).answer (d.origin x)) (s.enter x.slot)).2 := by
      refine .of_running fun y => (hrun' y).trans ?_
      exact ((d.steady_undisturbed.computation l depth x (s.enter x.slot)).running y).symm
    exact (hd.answer n (Origin.Near.refl (fun _ (_ : True) => rfl) (d.origin x))).error trivial
      (hs.enter hslot) (ht.enter x.slot) rfl ha (by omega) hun hrun' (by omega) e he
  | false =>
    obtain ⟨r, hr⟩ := Origin.exists_given hc
    rw [hr] at he ⊢
    exact he

/-- Requests have the results that they have where nothing is kept. -/
theorem Follows.ok {s t : Scope} (hs : d.Coherent s) (ht : t.Uncached) {x : Request} {n : Nat}
    (ha : t.Apart (outcome (d.request (d.evaluations (d.hostAt l depth)) x) s).2)
    (hroom : t.free d.declared < n) (hun : (outcome ((d.uncachedAt n).answer x) t).2.Unaided) {v : Json}
    (hv : (outcome (d.request (d.evaluations (d.hostAt l depth)) x) s).1 = .ok v) :
    (outcome ((d.uncachedAt n).answer x) t).1 = .ok v :=
  hd.coherent hn hs x x v (slot?_of_request hv) t n ht ha hroom hun

omit hn in
/-- Requests fail as they do where nothing is kept, if the same slots are in progress. -/
theorem Follows.error {s t : Scope} (hs : d.Coherent s) (ht : t.Uncached) {x : Request} {n : Nat}
    (hrun : ∀ y, t.running y = s.running y) (hroom : s.free d.declared < depth + 1)
    (hroom' : t.free d.declared < n) (hun : (outcome ((d.uncachedAt n).answer x) t).2.Unaided) {e : ExprError}
    (he : (outcome (d.request (d.evaluations (d.hostAt l depth)) x) s).1 = .error e) :
    (outcome ((d.uncachedAt n).answer x) t).1 = .error e := by
  cases n with
  | zero => omega
  | succ n =>
    cases hslot : s.slot? x.slot with
    | some slot =>
      cases slot with
      | inProgress =>
        have hr := Scope.running_iff.mpr hslot
        rw [request_running hr] at he
        cases he
        rw [answer_uncachedAt]
        change (outcome (d.request _ x) t).1 = _
        rw [request_running ((hrun _).trans hr)]
      | evaluated v =>
        rw [request_evaluated hslot] at he
        cases he
    | none =>
      rw [request_free hslot, fst_settle] at he
      exact hd.error_of_free hs ht hrun hslot hroom hroom' hun he

end

/-- The hosts of a deployment give what those give that keep nothing, at every depth. -/
theorem follows (hn : d.template.DistinctNames) (depth : Nat) : d.Follows l depth := by
  have hosts {depth : Nat} (ha : ∀ exact n x, (d.caching exact depth n ExprError).Agree
      ((d.hostAt l depth).answer x) ((d.uncachedAt n).answer x)) : d.Follows l depth := by
    intro exact n
    have hcalls (ns name : String) (hdefined : Callees.all.defined ns name) (arguments : List Json) :
        (d.caching exact depth n ExprError).Agree (d.callFunction d.callDepth ns name arguments)
          (d.callFunction d.callDepth ns name arguments) :=
      (accords_caching (l := l)).callFunction (throw_caching _) (fun _ _ _ _ _ => Callees.cover_all _) _ hdefined
        arguments
    have hagree := accords_caching.hostBy (l := l) hcalls (ha exact n)
    rw [hostAt_eq, hostsBy_eq, ← hostAt_eq]
    unfold uncachedAt at hagree ⊢
    rw [hostsBy_eq d (.ofDeclarations [])]
    exact hagree
  induction depth with
  | zero =>
    refine hosts fun exact n x => ?_
    have hthrow : (d.hostAt l 0).answer x = throw .callDepthExceeded := by
      obtain ⟨table, name⟩ := x
      cases table <;> rfl
    rw [hthrow]
    exact ⟨d.steady_undisturbed.refl, kept_uncachedAt n x, fun _ hs => hs, fun _ _ _ _ _ _ _ => nofun,
      fun _ _ _ _ _ _ _ _ hroom => absurd hroom (Nat.not_lt_zero _)⟩
  | succ depth ih =>
    refine hosts fun exact n x => ?_
    rw [answer_hostAt_succ]
    exact ⟨undisturbed_request depth x, kept_uncachedAt n x, fun s hs => ih.coherent hn hs x,
      fun hs ht _ ha hroom hun v hv => ih.ok hn hs ht ha hroom hun hv,
      fun _ hs ht _ _ hroom' hun hrun hroom e he => ih.error hs ht hrun hroom hroom' hun he⟩

/-- Steps of functions that neither find resources nor make identifiers need no aid. -/
theorem accords_unaided : d.Accords (.ofDeclarations []) (.ofDeclarations []) (changing Scope.unaidedFrame).alone
    d.template.internalCallees where
  evaluates := Scope.unaidedFrame.evaluates.alone
  copyIndex _ := ⟨rfl, Scope.unaidedFrame.refl⟩
  newGuid h := absurd (by decide) h
  remark _ := ⟨rfl, fun _ hs => hs.report nofun⟩
  resolve h := by
    rcases h with h | h
    · exact absurd (by decide) h
    · exact absurd (by decide) h

/-- Requests need no aid if their values are computed from strings that ask for such requests and call no function that
finds resources or makes identifiers. -/
theorem unaided_obeys {N : Request → Prop} (hN : ∀ x, N x → ∀ s ∈ (d.origin x).texts,
      TemplateString.AsksOnly N s ∧ d.template.internalCallees.Admits s) (n : Nat) (x : Request) (hx : N x) :
    (changing Scope.unaidedFrame).Obeys ((d.uncachedAt n).answer x) :=
  uncached_obeys Scope.unaidedFrame (fun _ _ h => (Scope.unaided_congr h).mpr) accords_unaided
    (fun _ _ f h hf => (h f hf).cover) hN n x hx

/-- A value needs no aid if no string that it comes to calls a function that finds resources or makes identifiers. -/
theorem unaided_of_comesTo {v : Json}
    (h : ∀ s, d.ComesTo v.texts s → d.template.SelfContained (TemplateString.calls s)) (n : Nat) (pointer : String)
    {t : Scope} (ht : t.Unaided) : (outcome (d.evalOn (d.uncachedAt n) pointer v) t).2.Unaided := by
  have hN : ∀ x, (∃ s, d.ComesTo v.texts s ∧ TemplateString.mayAsk x s = true) → ∀ s ∈ (d.origin x).texts,
      TemplateString.AsksOnly (fun y => ∃ s, d.ComesTo v.texts s ∧ TemplateString.mayAsk y s = true) s ∧
        d.template.internalCallees.Admits s := by
    rintro x ⟨s, hs, hx⟩ s' hs'
    have hcomes : d.ComesTo v.texts s' := hs.within hx hs'
    exact ⟨fun y hy => ⟨s', hcomes, hy⟩, (h s' hcomes).cover⟩
  have hagree := uncached_evaluations Scope.unaidedFrame (fun _ _ h => (Scope.unaided_congr h).mpr) accords_unaided
    (fun _ _ f h hf => (h f hf).cover) (unaided_obeys hN n)
  have heval := hagree.eval (rfl : pointer = pointer) v fun s hs =>
    ⟨fun x hx => ⟨s, .here hs, hx⟩, (h s (.here hs)).cover⟩
  exact heval.2 t ht

theorem Internal.unaided (hi : d.template.Internal) {t : Scope} (ht : t.Unaided) (n : Nat) (x : Request) :
    (outcome ((d.uncachedAt n).answer x) t).2.Unaided :=
  unaided_obeys (N := fun _ => True) (fun y _ s hs => ⟨fun _ _ => trivial, cover_origin_internal hi y s hs⟩) n x trivial
    t ht

/-! Histories of evaluations. -/

/-- A scope that evaluations in a deployment lead to, with resources that may be others each time: what they
do not keep may be anything in between. -/
inductive Evaluated (d : Deployment) : Scope → Prop
  | fresh {s : Scope} : s.parameters = [] → s.vars = [] → Evaluated d s
  | change {s t : Scope} : Evaluated d s → t.parameters = s.parameters → t.vars = s.vars → Evaluated d t
  | inquiry {s : Scope} (l : Ledger) (i : Inquiry) : Evaluated d s →
    Evaluated d (outcome (i.on d (d.host l)) s).2

theorem slot?_of_fresh {s : Scope} (hp : s.parameters = []) (hv : s.vars = []) (x : SlotName) :
    s.slot? x = none := by
  obtain ⟨table, key⟩ := x
  unfold Scope.slot? Scope.slots
  cases table with
  | parameters =>
    dsimp only
    rw [hp]
    rfl
  | vars =>
    dsimp only
    rw [hv]
    rfl

theorem Evaluated.running {s : Scope} (h : d.Evaluated s) (x : SlotName) : s.running x = false := by
  induction h with
  | fresh hp hv => exact Scope.running_of_free (slot?_of_fresh hp hv x)
  | change _ hp hv ih => rw [Scope.running_congr (Scope.slot?_congr hp hv x), ih]
  | inquiry l i _ ih => exact ((d.steady_undisturbed.inquiry l (d.slotCount + 1) i _).running x).trans ih

section
variable {R : Scope → Scope → Prop} (hF : Frame R) (hR : ∀ s t, (∀ x, t.slot? x = s.slot? x) → R s t)
include hF hR

theorem accords_of_slots : d.Accords l l (changing hF).alone .all where
  evaluates := hF.evaluates.alone
  copyIndex _ := ⟨rfl, hF.refl⟩
  newGuid _ := ⟨rfl, fun s => hR s _ fun _ => rfl⟩
  remark text := ⟨rfl, fun s => hR s _ (s.slot?_report _ _ _)⟩
  resolve _ view target := by
    refine ⟨rfl, fun s => ?_⟩
    obtain ⟨r, hr | hr⟩ := d.outcome_resolve l view target
    · rw [hr]
      exact hF.refl s
    · rw [hr]
      exact hR s _ (s.slot?_report _ _ _)

theorem surrounds_of_slots : (changing hF : Discipline ExpandError Scope).Surrounds (changing hF) :=
  hF.surrounds (fun s t h => hR s t (congrFun h)) (fun _ _ _ => rfl) fun s _ _ _ => hR s _ (s.slot?_report _ _ _)

theorem encloses_of_slots :
    (changing hF : Discipline ExpandError Scope).alone.Encloses (changing hF).alone Eq :=
  hF.encloses (fun s t h => hR s t (congrFun h)) fun _ _ _ => rfl

variable (hrequest : ∀ x s, R s (outcome (d.request (d.evaluations (d.hostAt l d.slotCount)) x) s).2)
include hrequest

/-- A deployment keeps a relation that requests keep, if it holds of scopes with the same slots. -/
theorem host_of_request : HostsAgree (changing hF).alone .all (d.host l) (d.host l) := by
  have haccords : d.Accords l l (changing hF).alone .all := accords_of_slots hF hR
  have hcalls (ns name : String) (hdefined : Callees.all.defined ns name) (arguments : List Json) :=
    haccords.callFunction ⟨rfl, hF.refl⟩ (fun _ _ _ _ _ => Callees.cover_all _) d.callDepth hdefined arguments
  have hhosts := haccords.hostBy hcalls fun x => ⟨rfl, hrequest x⟩
  have hhost : d.host l = d.hostBy l d.callDepth (d.request (d.evaluations (d.hostAt l d.slotCount))) := by
    unfold host
    rw [hostAt_eq, hostAt_eq]
    rfl
  rw [hhost]
  exact hhosts

theorem inquiry_of_request (i : Inquiry) (s : Scope) : R s (outcome (i.on d (d.host l)) s).2 :=
  (i.agree (d := d) (encloses_of_slots hF hR) (host_of_request hF hR hrequest)).2 s

theorem evalObeys_of_request : d.EvalObeys l (changing hF) (changing hF) :=
  .of_strings (surrounds_of_slots hF hR) fun p s => (Value.onHost_agree (encloses_of_slots hF hR).toSurrounds
    (host_of_request hF hR hrequest) p p rfl s (Callees.cover_all _)).2

end

theorem evalSteady_coherent (hn : d.template.DistinctNames) : EvalSteady d fun s t => d.Coherent s → d.Coherent t where
  toFrame := d.coherent_frame
  evalObeys _ := evalObeys_of_request d.coherent_frame (fun s t ht hs => hs.of_evaluated fun x v => by rw [ht])
    fun x _ hs => (follows hn d.slotCount).coherent hn hs x
  log _ _ hs := hs

theorem Evaluated.coherent (hn : d.template.DistinctNames) {s : Scope} (h : d.Evaluated s) : d.Coherent s := by
  induction h with
  | fresh hp hv =>
    intro x v hx
    rw [slot?_of_fresh hp hv] at hx
    cases hx
  | change _ hp hv ih => exact ih.of_evaluated fun x v => by rw [Scope.slot?_congr hp hv]
  | inquiry l i _ ih =>
    exact inquiry_of_request d.coherent_frame (fun s t ht hs => hs.of_evaluated fun x v => by rw [ht])
      (fun x s hs => (follows hn d.slotCount).coherent hn hs x) i _ ih

theorem running_start (loops : List (String × Int)) (x : SlotName) : Scope.running { loops } x = false :=
  Scope.running_of_free (slot?_of_fresh rfl rfl x)

theorem uncached_start (loops : List (String × Int)) : Scope.Uncached { loops } := by
  intro x v
  rw [slot?_of_fresh rfl rfl]
  nofun

theorem free_declared_lt (t : Scope) : t.free d.declared < d.slotCount + 1 := by
  have hfree : t.free d.declared ≤ d.declared.length := List.countP_le_length
  have hcount := d.length_declared_le
  omega

/-- Where nothing is in progress a request has the result that it has where nothing is kept. -/
theorem Evaluated.alone (hi : d.template.Internal) (hn : d.template.DistinctNames) {s : Scope}
    (h : d.Evaluated s) (x : Request) :
    (outcome ((d.host l).answer x) s).1 = (outcome ((d.uncachedAt (d.slotCount + 1)).answer x) {}).1 := by
  have hun : (outcome ((d.uncachedAt (d.slotCount + 1)).answer x) {}).2.Unaided :=
    Internal.unaided hi (Scope.unaided_start []) _ x
  unfold host
  rw [answer_hostAt_succ]
  have hc : d.Coherent s := h.coherent hn
  have hd : d.Follows l d.slotCount := follows hn d.slotCount
  cases hr : (outcome (d.request (d.evaluations (d.hostAt l d.slotCount)) x) s).1 with
  | ok v => exact (hd.ok hn hc (uncached_start []) (.of_idle (running_start [])) (free_declared_lt {}) hun hr).symm
  | error e =>
    exact (hd.error hc (uncached_start []) (fun y => (running_start [] y).trans (h.running y).symm)
      (free_declared_lt s) (free_declared_lt {}) hun hr).symm

/-- Where nothing is in progress a request has the result that it has in an empty scope. -/
theorem Evaluated.result (hi : d.template.Internal) (hn : d.template.DistinctNames) {s : Scope}
    (h : d.Evaluated s) (x : Request) :
    (outcome ((d.host l).answer x) s).1 = (outcome ((d.host k).answer x) {}).1 :=
  (h.alone hi hn x).trans (Evaluated.alone hi hn (.fresh rfl rfl) x).symm

/-- Parameters and variables are transparent to what is kept of them. After any sequence of evaluations, of
whatever, with whatever resources and loops, and whether they failed or not, a name has the result that it has
in a fresh scope, be it a value or a failure; if variables are told apart by their names and what parameters
and variables evaluate reaches no function that finds resources or makes identifiers. -/
theorem Evaluated.same_as_fresh (hi : d.template.Internal) (hn : d.template.DistinctNames) {s s₀ : Scope}
    (h : d.Evaluated s) (hp : s₀.parameters = []) (hv : s₀.vars = []) (l l₀ : Ledger) (name : String) :
    (outcome ((d.host l).parameterValue name) s).1 = (outcome ((d.host l₀).parameterValue name) s₀).1 ∧
      (outcome ((d.host l).variableValue name) s).1 = (outcome ((d.host l₀).variableValue name) s₀).1 := by
  have fresh : d.Evaluated s₀ := .fresh hp hv
  have same (x : Request) : (outcome ((d.host l).answer x) s).1 = (outcome ((d.host l₀).answer x) s₀).1 :=
    (h.result (k := l₀) hi hn x).trans (fresh.result hi hn x).symm
  exact ⟨same ⟨.parameters, name⟩, same ⟨.vars, name⟩⟩

/-- Variables, one of them of copies, a parameter and a function that build on each other. -/
def interwoven : Deployment :=
  plain [⟨"p", .array, some (.str "[variables('c')]"), none, false⟩]
    [("a", .str "[f.twice(variables('B'))]"), ("b", .str "x"),
      ("copy", .arr [.obj [("name", .str "c"), ("count", .str "[length(variables('a'))]"),
        ("input", .str "[copyIndex()]")]])]
    [⟨"f", "twice", [("x", .string)], .string, .str "[concat(parameters('x'), parameters('x'))]"⟩]

/-- The parameter is asked for within a loop, and then each name has the result that it has at first. -/
theorem Evaluated.same_as_fresh_interwoven :
    interwoven.template.Internal ∧ interwoven.template.DistinctNames ∧
      ∃ s, interwoven.Evaluated s ∧ (s.vars.get? "a").isSome = true ∧ ∀ name,
        (outcome ((interwoven.host ⟨[], {}, [], [], [], [], []⟩).parameterValue name) s).1 =
            (outcome ((interwoven.host ⟨[], {}, [], [], [], [], []⟩).parameterValue name) {}).1 ∧
          (outcome ((interwoven.host ⟨[], {}, [], [], [], [], []⟩).variableValue name) s).1 =
            (outcome ((interwoven.host ⟨[], {}, [], [], [], [], []⟩).variableValue name) {}).1 := by
  have hf : ∀ f ∈ interwoven.template.functions, ∀ c ∈ f.output.calls,
      c.ns = none ∧ Name.fold c.name ∉ externalFunctions := by decide +kernel
  have hi : interwoven.template.Internal := by
    refine ⟨fun e he => Template.Avoids.of_functions hf ?_, fun p hp v hv => Template.Avoids.of_functions hf ?_⟩
    · have hvars : ∀ e ∈ interwoven.template.vars, ∀ c ∈ e.2.calls, c.ns = none →
          Name.fold c.name ∉ externalFunctions := by decide +kernel
      exact hvars e he
    · obtain rfl := List.mem_singleton.mp hp
      cases hv
      decide +kernel
  have hn : interwoven.template.DistinctNames := by
    unfold Template.DistinctNames
    decide +kernel
  have h : interwoven.Evaluated (outcome ((Inquiry.request ⟨.parameters, "P"⟩).on interwoven
      (interwoven.host ⟨[], {}, [], [], [], [], []⟩)) { loops := [("loop", 3)] }).2 :=
    .inquiry _ _ (.fresh rfl rfl)
  exact ⟨hi, hn, _, h, by decide +kernel, fun name =>
    h.same_as_fresh hi hn rfl rfl ⟨[], {}, [], [], [], [], []⟩ ⟨[], {}, [], [], [], [], []⟩ name⟩

end Deployment
end ResourceTemplate
