import Mathlib.Logic.Relation
import ResourceTemplate.Proofs.Deployment.Failures
import ResourceTemplate.Proofs.Deployment.Hosts

namespace ResourceTemplate

open Relation (TransGen)

/-! Calls of functions. -/

def Template.Calls (t : Template) (f g : UserFunction) : Prop :=
  ∃ c ∈ f.output.calls, ∃ ns, c.ns = some ns ∧ t.function? ns c.name = some g

def Template.CallsEnd (t : Template) : Prop := ∀ f ∈ t.functions, ¬ TransGen t.Calls f f

namespace Deployment

variable {d : Deployment} {l k : Ledger} {A : Accord ExprError Scope}

/-- Calls that are nested in calls of distinct functions agree, whatever the bounds that are left, if these
are greater than the number of the other functions. -/
theorem callFunction_agree_of_seen (hf : d.template.CallsEnd) (h : ∀ C, d.Accords l k A C) {m n : Nat}
    (seen : List UserFunction) (hnodup : seen.Nodup) (hseen : seen ⊆ d.template.functions)
    (hm : d.template.functions.length < m + seen.length)
    (hn : d.template.functions.length < n + seen.length) {ns name : String}
    (hreach : ∀ f, d.template.function? ns name = some f → ∀ g ∈ seen, TransGen d.template.Calls g f)
    (arguments : List Json) :
    A.Agree (d.callFunction m ns name arguments) (d.callFunction n ns name arguments) := by
  have hlength : seen.length ≤ d.template.functions.length :=
    (List.subperm_of_subset hnodup hseen).length_le
  induction m generalizing n seen ns name arguments with
  | zero => omega
  | succ m ih =>
    cases n with
    | zero => omega
    | succ n =>
      let C : Callees := ⟨fun _ => True, fun ns' name' =>
        ∃ f, d.template.function? ns name = some f ∧
          ∃ c ∈ f.output.calls, c.ns = some ns' ∧ c.name = name'⟩
      refine (h C).applyFunction (fun f hfound => ⟨?_, ?_⟩) arguments
      · intro c hc
        unfold Callees.Has
        split
        · trivial
        · rename_i ns' hns
          exact ⟨f, hfound, c, hc, hns, rfl⟩
      · rintro ns' _ ⟨f', hfound', c, hc, hns, rfl⟩ arguments
        obtain rfl : f = f' := Option.some.inj (hfound.symm.trans hfound')
        have hmem : f ∈ d.template.functions := List.mem_of_find?_eq_some hfound
        have hnew : f ∉ seen := fun hs => hf f hmem (hreach f hfound f hs)
        have hnodup' : (f :: seen).Nodup := List.nodup_cons.mpr ⟨hnew, hnodup⟩
        have hseen' : f :: seen ⊆ d.template.functions := List.cons_subset.mpr ⟨hmem, hseen⟩
        refine ih (f :: seen) hnodup' hseen' (by simp; omega) (by simp; omega) ?_ arguments
          (List.subperm_of_subset hnodup' hseen').length_le
        intro g hg f' hf'
        have hcall : d.template.Calls f g := ⟨c, hc, ns', hns, hg⟩
        rcases List.mem_cons.mp hf' with rfl | hf'
        · exact .single hcall
        · exact .tail (hreach f hfound f' hf') hcall

/-- Where functions do not call themselves, hosts agree if their answers to requests do, under all bounds
greater than the number of the functions. -/
theorem hosts_agree_of_callsEnd (hf : d.template.CallsEnd) (h : ∀ C, d.Accords l k A C) {m n : Nat}
    (hm : d.template.functions.length < m) (hn : d.template.functions.length < n)
    {f g : Request → EvalM Scope Json} (ha : ∀ x, A.Agree (f x) (g x)) :
    HostsAgree A .all (d.hostBy l m f) (d.hostBy k n g) :=
  (h .all).hostBy (fun _ _ _ arguments => callFunction_agree_of_seen hf h [] List.nodup_nil
    (List.nil_subset _) hm hn (fun _ _ => nofun) arguments) ha

theorem length_functions_lt_callDepth (d : Deployment) : d.template.functions.length < d.callDepth := by
  unfold callDepth
  omega

theorem answer_hostAt_succ (depth : Nat) (x : Request) :
    (d.hostAt l (depth + 1)).answer x = d.request (d.evaluations (d.hostAt l depth)) x := by
  rw [hostAt_eq, hostAt_eq]
  exact d.answer_hostBy _ _ x

/-- Hosts of an answer to requests agree with those of a deployment at every depth, and at every greater one, if
requests agree one level above hosts that do. Nothing is asked of the lowest level. -/
theorem hosts_agree_of_request (hf : d.template.CallsEnd) {A : Nat → Accord ExprError Scope}
    (h : ∀ depth C, d.Accords l l (A depth) C)
    (hzero : ∀ {α : Type} (m m' : EvalM Scope α), (A 0).Agree m m') {calls : Nat}
    (hcalls : d.template.functions.length < calls) {answer : Evaluations → Request → EvalM Scope Json}
    (hstep : ∀ depth host, HostsAgree (A depth) .all (d.hostAt l depth) host → ∀ x,
      (A (depth + 1)).Agree (d.request (d.evaluations (d.hostAt l depth)) x)
        (answer (d.evaluations host) x))
    {depth n : Nat} (hn : depth ≤ n) :
    HostsAgree (A depth) .all (d.hostAt l depth) (d.hostsBy l calls answer n) := by
  have hosts {depth : Nat} {f g : Request → EvalM Scope Json} (ha : ∀ x, (A depth).Agree (f x) (g x)) :
      HostsAgree (A depth) .all (d.hostBy l d.callDepth f) (d.hostBy l calls g) :=
    hosts_agree_of_callsEnd hf (h depth) d.length_functions_lt_callDepth hcalls ha
  induction depth generalizing n with
  | zero =>
    rw [hostAt_eq]
    cases n with
    | zero => exact hosts fun x => hzero _ _
    | succ n => exact hosts fun x => hzero _ _
  | succ depth ih =>
    cases n with
    | zero => omega
    | succ n =>
      have hbelow := ih (Nat.le_of_succ_le_succ hn)
      rw [hostAt_eq]
      refine hosts fun x => ?_
      rw [← hostAt_eq]
      exact hstep depth _ hbelow x

end Deployment

/-! Steps that do the same. -/

def OfRunning (I : Scope → Prop) : Prop := ∀ s t, I s → (∀ x, t.running x = s.running x) → I t

def Unbounded (e : ExprError) : Prop := e ≠ .callDepthExceeded

theorem unbounded_of_isDefinite : Admits Unbounded := by
  rintro e he rfl
  cases he

/-- The accord of steps that do the same wherever a property holds, and keep it. They do not fail but with
what has another. -/
def sameWhere {ε : Type} (I : Scope → Prop) (E : ε → Prop) : Accord ε Scope where
  Agree m n := ∀ s, I s → outcome n s = outcome m s ∧ I (outcome m s).2 ∧ Fails E (outcome m s).1
  agree_pure a s hs := ⟨rfl, hs, .ok a⟩
  agree_bind {α β m n f g} hm hf s hs := by
    obtain ⟨hmn, hi, he⟩ := hm s hs
    rw [outcome_bind, outcome_bind, hmn]
    rcases ho : outcome m s with ⟨e | a, t⟩
    · rw [ho] at hi he
      exact ⟨rfl, hi, Fails.error.mpr (he e rfl)⟩
    · rw [ho] at hi
      exact hf a t hi

namespace sameWhere

variable {α : Type} {I : Scope → Prop} {d : Deployment} {l : Ledger}

/-- A step that keeps the slots in progress does the same as itself. -/
theorem refl (hI : OfRunning I) {ε : Type} {E : ε → Prop} {m : ExceptT ε (StateM Scope) α}
    (hm : ∀ s, ∀ x, (outcome m s).2.running x = s.running x) (hE : FailsWith E m) :
    (sameWhere I E).Agree m m := fun s hs => ⟨rfl, hI s _ hs (hm s), fun e he => hE s e _ (Prod.ext he rfl)⟩

theorem encloses (hI : OfRunning I) :
    (sameWhere I (Within Unbounded)).Encloses (sameWhere I Unbounded) Eq where
  inside := { lift := fun h s hs => ⟨rfl, hs, fun e he => unbounded_of_isDefinite e (h e he)⟩ }
  append _ h := congrArg (· ++ _) h
  lift {α f p q} hpq hf _ s hs := by
    subst hpq
    exact ⟨rfl, hs, fun e he => unbounded_of_isDefinite.within (hf p e he)⟩
  atPlace {α m n p q} hpq hm s hs := by
    subst hpq
    obtain ⟨hmn, hi, he⟩ := hm { s with pointer := p } (hI s _ hs fun _ => rfl)
    rw [ScopeM.outcome_atPlace, ScopeM.outcome_atPlace, hmn]
    exact ⟨rfl, hI _ _ hi fun _ => rfl, he.mapError fun _ => within_expression.mpr⟩
  withLoop {α m n} name i hm s hs := by
    obtain ⟨hmn, hi, he⟩ := hm { s with loops := (name, (i : Int)) :: s.loops } (hI s _ hs fun _ => rfl)
    rw [ScopeM.outcome_withLoop, ScopeM.outcome_withLoop, hmn]
    exact ⟨rfl, hI _ _ hi fun _ => rfl, he⟩
  refl _ := rfl
  toEval {α m n} hm s hs := by
    obtain ⟨hmn, hi, he⟩ := hm s hs
    rw [ScopeM.outcome_toEval, ScopeM.outcome_toEval, hmn]
    exact ⟨rfl, hi, he.mapError fun _ => unbounded_of_isDefinite.toExprError⟩

theorem accords (hI : OfRunning I) (C : Callees) : d.Accords l l (sameWhere I Unbounded) C where
  evaluates := (encloses hI).inside
  copyIndex loop s hs :=
    ⟨rfl, hs, fun e he => unbounded_of_isDefinite e (s.definite_copyIndex loop e he)⟩
  newGuid _ := refl hI (fun _ _ => rfl) (.of_ok fun _ => ⟨_, _, rfl⟩)
  remark text := refl hI
    (fun s x => (((d.steady_undisturbed.obeys l).remark text) s).running x) (.of_ok fun _ => ⟨_, _, rfl⟩)
  resolve _ view target := refl hI
    (fun s x => (((d.steady_undisturbed.obeys l).resolve view target) s).running x)
    (Deployment.failsWith_resolve unbounded_of_isDefinite (fun _ _ => nofun) view target)

end sameWhere

/-! Depth. -/

/-- Evaluations that begin only where a test passes, and else fail as if nested too deeply. -/
def Evaluations.watched (test : Scope → Bool) (E : Evaluations) : Evaluations where
  eval pointer v s := if test s then E.eval pointer v s else (.error (.expression pointer .callDepthExceeded), s)
  copy pointer v s := if test s then E.copy pointer v s else (.error (.expression pointer .callDepthExceeded), s)

namespace Deployment

/-- A scope where only declared slots are in progress. -/
def OnlyDeclared (d : Deployment) (s : Scope) : Prop := ∀ x, s.running x = true → x ∈ d.declared

/-- A scope where only declared slots are in progress and fewer than some number are not. -/
def Room (d : Deployment) (depth : Nat) (s : Scope) : Prop :=
  d.OnlyDeclared s ∧ s.free d.declared < depth

/-- The answer of a deployment that tests the scope whenever it begins to compute a value. -/
def watchedRequest (d : Deployment) (test : Scope → Bool) (E : Evaluations) : Request → EvalM Scope Json :=
  d.request (E.watched test)

variable {d : Deployment} {l : Ledger}

theorem OnlyDeclared.ofRunning : OfRunning d.OnlyDeclared := by
  intro s t hs h x hx
  rw [h] at hx
  exact hs x hx

theorem Room.ofRunning (depth : Nat) : OfRunning (d.Room depth) := by
  intro s t hs h
  have hfree : t.free d.declared = s.free d.declared := Scope.free_congr h
  exact ⟨OnlyDeclared.ofRunning s t hs.1 h, by rw [hfree]; exact hs.2⟩

/-- There is room for one level more than there are declared slots. -/
theorem OnlyDeclared.room {s : Scope} (h : d.OnlyDeclared s) : d.Room (d.declared.length + 1) s := by
  have hfree : s.free d.declared ≤ d.declared.length := List.countP_le_length
  exact ⟨h, by omega⟩

/-- A declared slot that is begun takes one of those that are not in progress. -/
theorem Room.enter {depth : Nat} {s : Scope} {x : SlotName} (h : d.Room (depth + 1) s)
    (hx : x ∈ d.declared) (hs : s.running x = false) : d.Room depth (s.enter x) := by
  have hlt := Scope.free_enter_lt hx hs
  have hroom := h.2
  refine ⟨fun y hy => ?_, by omega⟩
  rw [Scope.running_enter] at hy
  by_cases hyx : y = x
  · exact hyx ▸ hx
  · rw [if_neg hyx] at hy
    exact h.1 y hy

theorem watchedRequest_true : d.watchedRequest (fun _ => true) = d.request := by
  funext E
  rfl

theorem fst_settle (x : Request) (s : Scope) (o : Except ExprError Json × Scope) :
    (d.settle x s o).1 = o.1 := by
  obtain ⟨r | v, t⟩ := o <;> rfl

theorem undisturbed_request (depth : Nat) (x : Request) (s : Scope) :
    s.Undisturbed (outcome (d.request (d.evaluations (d.hostAt l depth)) x) s).2 := by
  rw [← answer_hostAt_succ]
  exact d.steady_undisturbed.inquiry l (depth + 1) (.request x) s

/-- The slot whose value is computed is in progress until the end. -/
theorem slot?_computation (d : Deployment) (l : Ledger) (depth : Nat) (x : Request) (s : Scope) :
    (outcome ((d.evaluations (d.hostAt l depth)).answer (d.origin x)) (s.enter x.slot)).2.slot? x.slot =
      some .inProgress := by
  have hentered : (s.enter x.slot).slot? x.slot = some .inProgress := by
    rw [Scope.slot?_enter, if_pos rfl]
  exact ((d.steady_undisturbed.computation l depth x (s.enter x.slot)).slot? x.slot).1.mpr hentered

section
variable {depth : Nat} {E : Evaluations} (x : Request) {s : Scope}
  (hE : (d.evaluations (d.hostAt l depth)).Agree (sameWhere (d.Room depth) (Within Unbounded)) Eq Callees.all.Admits E)
include hE

/-- A value is computed alike on hosts that do the same where there is less room. -/
theorem computation_sameWhere (hs : d.Room (depth + 1) s) (hfree : s.running x.slot = false) :
    outcome (E.answer (d.origin x)) (s.enter x.slot) =
        outcome ((d.evaluations (d.hostAt l depth)).answer (d.origin x)) (s.enter x.slot) ∧
      Fails Unbounded
        (outcome ((d.evaluations (d.hostAt l depth)).answer (d.origin x)) (s.enter x.slot)).1 := by
  cases ho : (d.origin x).isComputed with
  | true =>
    have ha := hE.answer (sameWhere.encloses (Room.ofRunning depth))
      (Origin.Near.refl (fun _ => rfl) (d.origin x)) (d.origin x).cover_all fun _ => d.definite_origin
    obtain ⟨heq, -, hfails⟩ := ha _ (hs.enter (mem_declared ho) hfree)
    exact ⟨heq, hfails⟩
  | false =>
    -- a value that is given needs no room
    obtain ⟨r, hr⟩ := Origin.exists_given ho
    rw [hr]
    exact ⟨rfl, fun e he => unbounded_of_isDefinite e (d.definite_origin hr e he)⟩

/-- Requests do the same on hosts that do the same one level below, where there is less room. -/
theorem request_sameWhere :
    (sameWhere (d.Room (depth + 1)) Unbounded).Agree
      (d.request (d.evaluations (d.hostAt l depth)) x) (d.request E x) := by
  intro s hs
  have hroom : d.Room (depth + 1) (outcome (d.request (d.evaluations (d.hostAt l depth)) x) s).2 :=
    Room.ofRunning _ s _ hs (undisturbed_request depth x s).running
  refine and_left_comm.mp ⟨hroom, ?_⟩
  cases hslot : s.slot? x.slot with
  | some slot =>
    cases slot with
    | inProgress =>
      have hr := Scope.running_iff.mpr hslot
      rw [request_running hr, request_running hr]
      exact ⟨rfl, Fails.error.mpr nofun⟩
    | evaluated v =>
      rw [request_evaluated hslot, request_evaluated hslot]
      exact ⟨rfl, .ok v⟩
  | none =>
    obtain ⟨hsame, hfails⟩ := computation_sameWhere x hE hs (Scope.running_of_free hslot)
    rw [request_free hslot, request_free hslot, hsame, fst_settle]
    exact ⟨rfl, hfails⟩

end

/-- Evaluations that are watched do the same where the test passes. -/
theorem watched_agree {I : Scope → Prop} {E F : Evaluations} {Q : ExpandError → Prop}
    (hE : E.Agree (sameWhere I Q) Eq Callees.all.Admits F) {test : Scope → Bool} (ht : ∀ s, I s → test s = true) :
    E.Agree (sameWhere I Q) Eq Callees.all.Admits (F.watched test) where
  eval {p q} hpq v hc s hs := by
    have hw : outcome ((F.watched test).eval q v) s = outcome (F.eval q v) s := if_pos (ht s hs)
    rw [hw]
    exact hE.eval hpq v hc s hs
  copy {p q} hpq v hc s hs := by
    have hw : outcome ((F.watched test).copy q v) s = outcome (F.copy q v) s := if_pos (ht s hs)
    rw [hw]
    exact hE.copy hpq v hc s hs

/-- Where fewer slots are free than there are levels, hosts of any greater depth and any greater bound on calls
do the same, and so do those that test that only declared slots are in progress. -/
theorem hosts_sameWhere (hf : d.template.CallsEnd) {calls : Nat}
    (hcalls : d.template.functions.length < calls) (test : Scope → Bool)
    (ht : ∀ s, d.OnlyDeclared s → test s = true) {depth n : Nat} (hn : depth ≤ n) :
    HostsAgree (sameWhere (d.Room depth) Unbounded) .all (d.hostAt l depth)
      (d.hostsBy l calls (d.watchedRequest test) n) := by
  refine hosts_agree_of_request hf (fun depth C => sameWhere.accords (Room.ofRunning depth) C)
    (fun _ _ _ hs => absurd hs.2 (Nat.not_lt_zero _)) hcalls (fun depth host hbelow x => ?_) hn
  have he := d.evaluations_agree (sameWhere.encloses (Room.ofRunning depth)) hbelow
  exact request_sameWhere x (watched_agree he fun s hs => ht s hs.1)

theorem inquiry_sameWhere (hf : d.template.CallsEnd) {s : Scope} (hs : d.OnlyDeclared s) {n calls : Nat}
    (hn : d.declared.length < n) (hcalls : d.template.functions.length < calls) (test : Scope → Bool)
    (ht : ∀ s, d.OnlyDeclared s → test s = true) (i : Inquiry) :
    outcome (i.on d (d.hostsBy l calls (d.watchedRequest test) n)) s =
        outcome (i.on d (d.hostAt l (d.declared.length + 1))) s ∧
      Fails Unbounded (outcome (i.on d (d.hostAt l (d.declared.length + 1))) s).1 := by
  have hagree := i.agree (d := d) (sameWhere.encloses (Room.ofRunning (d.declared.length + 1)))
    (hosts_sameWhere (l := l) hf hcalls test ht hn)
  obtain ⟨hsame, -, hfails⟩ := hagree s hs.room
  exact ⟨hsame, hfails⟩

/-- The depth of a deployment is enough: one level more than there are declared slots does the same. -/
theorem inquiry_host (hf : d.template.CallsEnd) {s : Scope} (hs : d.OnlyDeclared s) (i : Inquiry) :
    outcome (i.on d (d.host l)) s = outcome (i.on d (d.hostAt l (d.declared.length + 1))) s := by
  have hcount := d.length_declared_le
  have hsame := (inquiry_sameWhere (l := l) hf hs (n := d.slotCount + 1) (by omega)
    d.length_functions_lt_callDepth (fun _ => true) (fun _ _ => rfl) i).1
  rw [watchedRequest_true, ← hostAt_eq] at hsame
  exact hsame

end Deployment
end ResourceTemplate
