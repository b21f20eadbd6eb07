import ResourceTemplate.Proofs.Deployment.Hosts
import ResourceTemplate.Proofs.Expr.Evaluation

namespace ResourceTemplate

namespace Diagnostic

variable (Q : String → String → Prop)

def Reworded (x y : Diagnostic) : Prop := ∃ message, y = { x with message } ∧ Q x.message message

/-- Diagnostics in the same order, but for their texts, and for those that repeat others. -/
inductive Rephrased : List Diagnostic → List Diagnostic → Prop
  | refl (xs : List Diagnostic) : Rephrased xs xs
  | both {xs ys : List Diagnostic} {x y : Diagnostic} :
    Rephrased xs ys → x.Reworded Q y → Rephrased (xs ++ [x]) (ys ++ [y])
  | left {xs ys : List Diagnostic} {x y : Diagnostic} :
    Rephrased xs ys → x.Reworded Q y → y ∈ ys → Rephrased (xs ++ [x]) ys
  | right {xs ys : List Diagnostic} {x y : Diagnostic} :
    Rephrased xs ys → x.Reworded Q y → x ∈ xs → Rephrased xs (ys ++ [y])

variable {Q}

theorem Reworded.located {x y : Diagnostic} (h : x.Reworded Q y) (deployment pointer : String) :
    (x.located deployment pointer).Reworded Q (y.located deployment pointer) := by
  obtain ⟨message, rfl, hm⟩ := h
  obtain ⟨severity, code, text, location⟩ := x
  cases location with
  | none => exact ⟨message, rfl, hm⟩
  | some place => exact ⟨message, rfl, hm⟩

def SameRemark (x y : Diagnostic) : Prop := ∃ message, y = { x with message } ∧ Expr.SameRemark x.message message

/-- Diagnostics in the same order, but for the offsets that they quote, and for those that repeat others. -/
inductive Repeats : List Diagnostic → List Diagnostic → Prop
  | refl (xs : List Diagnostic) : Repeats xs xs
  | both {xs ys : List Diagnostic} {x y : Diagnostic} :
    Repeats xs ys → x.SameRemark y → Repeats (xs ++ [x]) (ys ++ [y])
  | left {xs ys : List Diagnostic} {x y : Diagnostic} :
    Repeats xs ys → x.SameRemark y → y ∈ ys → Repeats (xs ++ [x]) ys
  | right {xs ys : List Diagnostic} {x y : Diagnostic} :
    Repeats xs ys → x.SameRemark y → x ∈ xs → Repeats xs (ys ++ [y])

theorem repeats_iff {xs ys : List Diagnostic} : Repeats xs ys ↔ Rephrased Expr.SameRemark xs ys := by
  constructor
  · intro h
    induction h with
    | refl xs => exact .refl xs
    | both _ hxy ih => exact ih.both hxy
    | left _ hxy hy ih => exact ih.left hxy hy
    | right _ hxy hx ih => exact ih.right hxy hx
  · intro h
    induction h with
    | refl xs => exact .refl xs
    | both _ hxy ih => exact ih.both hxy
    | left _ hxy hy ih => exact ih.left hxy hy
    | right _ hxy hx ih => exact ih.right hxy hx

end Diagnostic

namespace Scope

def noted (s : Scope) (more : List Diagnostic) : Scope :=
  { s with diagnostics := s.diagnostics ++ more, log := s.log ++ more }

/-- Scopes that are the same but for diagnostics that were reported last. These differ in their texts, and in how often
they are kept. -/
def SameButTexts (Q : String → String → Prop) (s t : Scope) : Prop :=
  ∃ u more other, s = noted u more ∧ t = noted u other ∧
    Diagnostic.Rephrased Q (u.diagnostics ++ more) (u.diagnostics ++ other)

/-- Scopes that are the same but for diagnostics that were reported last. These differ in the offsets that they quote,
and in how often they are kept. -/
def SameButRemarks (s t : Scope) : Prop :=
  ∃ u more other, s = noted u more ∧ t = noted u other ∧
    Diagnostic.Repeats (u.diagnostics ++ more) (u.diagnostics ++ other)

theorem sameButRemarks_eq : SameButRemarks = SameButTexts Expr.SameRemark := by
  funext s t
  simp only [SameButRemarks, SameButTexts, Diagnostic.repeats_iff]

variable {Q : String → String → Prop} {s t : Scope}

theorem noted_nil (s : Scope) : s.noted [] = s := by
  unfold noted
  rw [List.append_nil, List.append_nil]

theorem noted_noted (s : Scope) (xs ys : List Diagnostic) : (s.noted xs).noted ys = s.noted (xs ++ ys) := by
  unfold noted
  rw [← List.append_assoc, ← List.append_assoc]

theorem SameButTexts.refl (s : Scope) : s.SameButTexts Q s :=
  ⟨s, [], [], s.noted_nil.symm, s.noted_nil.symm, .refl _⟩

theorem report_noted (s : Scope) (deployment pointer : String) (x : Diagnostic) :
    s.report deployment pointer x =
      if x.located deployment pointer ∈ s.diagnostics then s else s.noted [x.located deployment pointer] := by
  unfold report
  simp only [List.contains_iff_mem]
  rfl

namespace SameButTexts

variable (h : s.SameButTexts Q t)
include h

theorem view {β : Type} {f : Scope → β} (hf : ∀ s more, f (noted s more) = f s) : f t = f s := by
  obtain ⟨u, more, other, rfl, rfl, -⟩ := h
  rw [hf, hf]

theorem slot? (x : SlotName) : t.slot? x = s.slot? x := h.view (f := fun s => s.slot? x) fun _ _ => rfl

theorem loops : t.loops = s.loops := h.view (f := Scope.loops) fun _ _ => rfl

theorem pointer : t.pointer = s.pointer := h.view (f := Scope.pointer) fun _ _ => rfl

theorem guids : t.guids = s.guids := h.view (f := Scope.guids) fun _ _ => rfl

theorem map {f : Scope → Scope} (hf : ∀ s more, f (noted s more) = noted (f s) more)
    (hd : ∀ s, (f s).diagnostics = s.diagnostics) : (f s).SameButTexts Q (f t) := by
  obtain ⟨u, more, other, rfl, rfl, hr⟩ := h
  refine ⟨f u, more, other, hf u more, hf u other, ?_⟩
  rw [hd]
  exact hr

theorem inLoops (loops : List (String × Int)) : (s.inLoops loops).SameButTexts Q (t.inLoops loops) :=
  h.map (fun _ _ => rfl) fun _ => rfl

theorem atPointer (pointer : String) : SameButTexts Q { s with pointer } { t with pointer } :=
  h.map (f := fun s => { s with pointer }) (fun _ _ => rfl) fun _ => rfl

theorem put (x : SlotName) (slot : Slot) : (s.put x slot).SameButTexts Q (t.put x slot) := by
  obtain ⟨table, key⟩ := x
  cases table with
  | parameters => exact h.map (fun _ _ => rfl) fun _ => rfl
  | vars => exact h.map (fun _ _ => rfl) fun _ => rfl

theorem enter (x : SlotName) : (s.enter x).SameButTexts Q (t.enter x) := (h.put x .inProgress).inLoops []

theorem remember (v : Json) : (s.remember v).SameButTexts Q (t.remember v) := by
  refine h.map (f := fun s => s.remember v) (fun s more => ?_) fun s => ?_
  · change (if isTrackable v && !(s.secure.any fun x => x.eqUnordered v) then _ else _) = _
    unfold Scope.remember
    split <;> rfl
  · obtain ⟨_, hs⟩ := s.remember_eq v
    rw [hs]

theorem report {x y : Diagnostic} (hxy : x.Reworded Q y) (deployment pointer : String) :
    (s.report deployment pointer x).SameButTexts Q (t.report deployment pointer y) := by
  obtain ⟨u, more, other, rfl, rfl, hr⟩ := h
  have hsame := hxy.located deployment pointer
  rw [report_noted, report_noted]
  generalize x.located deployment pointer = x at hsame
  generalize y.located deployment pointer = y at hsame
  -- each of the two is kept or is known
  by_cases hx : x ∈ (u.noted more).diagnostics
  · by_cases hy : y ∈ (u.noted other).diagnostics
    · rw [if_pos hx, if_pos hy]
      exact ⟨u, more, other, rfl, rfl, hr⟩
    · rw [if_pos hx, if_neg hy, noted_noted]
      refine ⟨u, more, other ++ [y], rfl, rfl, ?_⟩
      rw [← List.append_assoc]
      exact hr.right hsame hx
  · by_cases hy : y ∈ (u.noted other).diagnostics
    · rw [if_neg hx, if_pos hy, noted_noted]
      refine ⟨u, more ++ [x], other, rfl, rfl, ?_⟩
      rw [← List.append_assoc]
      exact hr.left hsame hy
    · rw [if_neg hx, if_neg hy, noted_noted, noted_noted]
      refine ⟨u, more ++ [x], other ++ [y], rfl, rfl, ?_⟩
      rw [← List.append_assoc, ← List.append_assoc]
      exact hr.both hsame

end SameButTexts
end Scope

namespace Deployment

variable {Q : String → String → Prop} {d : Deployment} {l : Ledger} {s t : Scope}

theorem keep_sameButTexts (h : s.SameButTexts Q t) (x : Request) (v : Json) :
    (d.keep x v s).SameButTexts Q (d.keep x v t) := by
  refine Scope.SameButTexts.put ?_ x.slot _
  unfold remember
  split
  · split
    · exact h.remember v
    · exact h
  · exact h

theorem sameButTexts_encloses : (Accord.following (Scope.SameButTexts Q) : Accord ExpandError Scope).Encloses
    (Accord.following (Scope.SameButTexts Q)) Eq where
  inside := Accord.following_evaluates _
  append _ h := congrArg (· ++ _) h
  lift {α f p q} hpq _ _ := by
    subst hpq
    intro s t h a u ha
    obtain ⟨hr, rfl⟩ := Prod.mk.inj ha
    exact ⟨t, Prod.ext hr rfl, h⟩
  atPlace {α m n p q} hpq hm := by
    subst hpq
    intro s t h a u ha
    rw [ScopeM.outcome_atPlace, Prod.mk.injEq, mapError_eq_ok] at ha
    obtain ⟨ha, rfl⟩ := ha
    obtain ⟨v, hv, hu⟩ := hm _ _ (h.atPointer p) a _ (Prod.ext ha rfl)
    refine ⟨{ v with pointer := t.pointer }, ?_, ?_⟩
    · rw [ScopeM.outcome_atPlace, hv]
      rfl
    · rw [h.pointer]
      exact hu.atPointer _
  withLoop {α m n} name i hm := by
    intro s t h a u ha
    rw [ScopeM.outcome_withLoop, Prod.mk.injEq] at ha
    obtain ⟨ha, rfl⟩ := ha
    obtain ⟨v, hv, hu⟩ := hm _ _ (h.inLoops ((name, (i : Int)) :: s.loops)) a _ (Prod.ext ha rfl)
    have hstep : outcome (ScopeM.withLoop name i n) t =
        ((outcome n (t.inLoops ((name, (i : Int)) :: t.loops))).1,
          (outcome n (t.inLoops ((name, (i : Int)) :: t.loops))).2.inLoops
            (outcome n (t.inLoops ((name, (i : Int)) :: t.loops))).2.loops.tail) := rfl
    refine ⟨v.inLoops v.loops.tail, ?_, ?_⟩
    · rw [hstep, h.loops, hv]
    · rw [hu.loops]
      exact hu.inLoops _
  refl _ := rfl
  toEval {α m n} hm := by
    intro s t h a u ha
    rw [ScopeM.outcome_toEval, Prod.mk.injEq, mapError_eq_ok] at ha
    obtain ⟨ha, rfl⟩ := ha
    obtain ⟨v, hv, hu⟩ := hm s t h a _ (Prod.ext ha rfl)
    exact ⟨v, by rw [ScopeM.outcome_toEval, hv]; rfl, hu⟩

theorem warn_sameButTexts (h : s.SameButTexts Q t) {text other : String} (ht : Q text other) :
    (d.warn text s).SameButTexts Q (d.warn other t) := by
  unfold warn
  rw [h.pointer]
  exact h.report ⟨other, rfl, ht⟩ _ _

/-- Requests have the same answer in scopes that differ in texts, if evaluations have. -/
theorem request_sameButTexts {E : Evaluations}
    (hE : E.Agree (.following (Scope.SameButTexts Q)) Eq Callees.all.Admits E) (x : Request) :
    (Accord.following (Scope.SameButTexts Q)).Agree (d.request E x) (d.request E x) := by
  intro s t h a u ha
  have hslots := h.slot? x.slot
  cases hslot : s.slot? x.slot with
  | some slot =>
    rw [hslot] at hslots
    cases slot with
    | inProgress =>
      rw [request_running (Scope.running_iff.mpr hslot)] at ha
      cases ha
    | evaluated v =>
      rw [request_evaluated hslot] at ha
      obtain ⟨hv, rfl⟩ := Prod.mk.inj ha
      exact ⟨t, by rw [request_evaluated hslots, hv], h⟩
  | none =>
    rw [hslot] at hslots
    rw [request_free hslot] at ha
    rcases ho : outcome (E.answer (d.origin x)) (s.enter x.slot) with ⟨e | v, s'⟩
    · rw [ho] at ha
      cases ha
    · rw [ho] at ha
      obtain ⟨hv, rfl⟩ := Prod.mk.inj ha
      have hanswer := hE.answer sameButTexts_encloses (Origin.Near.refl (fun _ => rfl) (d.origin x))
        (d.origin x).cover_all fun _ => d.definite_origin
      obtain ⟨t', ht', hs'⟩ := hanswer _ _ (h.enter x.slot) v s' ho
      refine ⟨(d.keep x v t').inLoops t.loops, ?_, ?_⟩
      · rw [request_free hslots, ht', ← hv]
        rfl
      · rw [h.loops]
        exact (keep_sameButTexts hs' x v).inLoops _

section

variable (hQ : ∀ text, Q text text)
include hQ

theorem accords_sameButTexts (d : Deployment) (l : Ledger) :
    d.Accords l l (.following (Scope.SameButTexts Q)) .all where
  evaluates := Accord.following_evaluates _
  copyIndex loop := Accord.following_ask fun s t h => by
    unfold Scope.copyIndex
    rw [h.loops]
  newGuid _ := Accord.following_act fun s t h => by
    refine ⟨?_, h.map (f := fun s => (d.newGuid s).2) (fun _ _ => rfl) fun _ => rfl⟩
    unfold newGuid
    rw [h.guids]
  remark _ := Accord.following_act fun _ _ h => ⟨rfl, warn_sameButTexts h (hQ _)⟩
  resolve _ view target := by
    unfold resolve
    split
    · exact Accord.following_throw _ _
    · exact .pure _
    · exact Accord.following_throw _ _
    · exact Accord.following_throw _ _
    · exact Accord.following_throw _ _
    · exact Accord.following_throw _ _
    · refine (Accord.following_modify fun s t h => ?_).bind fun _ => .pure _
      rw [h.pointer]
      exact h.report ⟨_, rfl, hQ _⟩ _ _

theorem callFunction_sameButTexts (d : Deployment) (depth : Nat) (ns name : String) (arguments : List Json) :
    (Accord.following (Scope.SameButTexts Q)).Agree (d.callFunction depth ns name arguments)
      (d.callFunction depth ns name arguments) := by
  have hdefined : Callees.all.defined ns name := trivial
  exact (d.accords_sameButTexts hQ (.ofDeclarations [])).callFunction (Accord.following_throw _ _)
    (fun _ _ _ _ _ => Callees.cover_all _) depth hdefined arguments

theorem hostAt_sameButTexts (d : Deployment) (l : Ledger) (depth : Nat) :
    HostsAgree (.following (Scope.SameButTexts Q)) .all (d.hostAt l depth) (d.hostAt l depth) := by
  have hcalls (ns name : String) (_ : Callees.all.defined ns name) (arguments : List Json) :=
    d.callFunction_sameButTexts hQ d.callDepth ns name arguments
  rw [hostAt_eq]
  induction depth with
  | zero => exact (d.accords_sameButTexts hQ l).hostBy hcalls fun _ => Accord.following_throw _ _
  | succ depth ih =>
    exact (d.accords_sameButTexts hQ l).hostBy hcalls fun x =>
      request_sameButTexts (d.evaluations_agree sameButTexts_encloses ih) x

theorem bodyHost_sameButTexts (d : Deployment) (depth : Nat) (f : UserFunction) (arguments : Entries Json) :
    HostsAgree (.following (Scope.SameButTexts Q)) .all (f.bodyHost d (d.callFunction depth) arguments)
      (f.bodyHost d (d.callFunction depth) arguments) :=
  (d.accords_sameButTexts hQ (.ofDeclarations [])).bodyHost
    (fun ns name _ => d.callFunction_sameButTexts hQ depth ns name) f arguments

end

theorem warn_hostAt (d : Deployment) (l : Ledger) (depth : Nat) : (d.hostAt l depth).warn = d.warn := by
  cases depth <;> rfl

/-- The hosts of a deployment overlook offsets: they leave scopes that are the same but for what remarks quote, and for
how often a remark is kept. -/
theorem hostAt_overlooks (d : Deployment) (l : Ledger) (depth : Nat) :
    (d.hostAt l depth).Overlooks Scope.SameButRemarks := by
  rw [Scope.sameButRemarks_eq]
  refine ⟨.refl, d.hostAt_sameButTexts (fun _ => .inl rfl) l depth, fun name i j s t h => ?_⟩
  rw [warn_hostAt]
  exact warn_sameButTexts h (.inr ⟨name, i, j, rfl, rfl⟩)

theorem bodyHost_overlooks (d : Deployment) (depth : Nat) (f : UserFunction) (arguments : Entries Json) :
    (f.bodyHost d (d.callFunction depth) arguments).Overlooks Scope.SameButRemarks := by
  rw [Scope.sameButRemarks_eq]
  exact ⟨.refl, d.bodyHost_sameButTexts (fun _ => .inl rfl) depth f arguments,
    fun name i j _ _ h => warn_sameButTexts h (.inr ⟨name, i, j, rfl, rfl⟩)⟩

end Deployment
end ResourceTemplate
