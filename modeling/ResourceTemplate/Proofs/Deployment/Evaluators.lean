import ResourceTemplate.Proofs.Deployment.Hosts
import ResourceTemplate.Proofs.Deployment.Strings

namespace ResourceTemplate

section

namespace Scope

def bare (s : Scope) : Scope := { s with pointer := "", diagnostics := [], log := [] }

/-- Scopes that are the same but for their places and diagnostics. -/
def SameButNotes (s t : Scope) : Prop := t.bare = s.bare

theorem bare_report (s : Scope) (deployment pointer : String) (x : Diagnostic) :
    (s.report deployment pointer x).bare = s.bare := by
  unfold report
  dsimp only
  split <;> rfl

namespace SameButNotes

variable {s t : Scope}

theorem refl (s : Scope) : s.SameButNotes s := rfl

variable (h : s.SameButNotes t)
include h

/-- What is seen without the place and the diagnostics is the same. -/
theorem view {β : Type} {f : Scope → β} (hf : ∀ s, f s.bare = f s) : f t = f s := by
  have hbare : f t.bare = f s.bare := congrArg f h
  rwa [hf, hf] at hbare

theorem slot? (x : SlotName) : t.slot? x = s.slot? x := h.view (f := fun s => s.slot? x) fun _ => rfl

theorem loops : t.loops = s.loops := h.view (f := Scope.loops) fun _ => rfl

theorem guids : t.guids = s.guids := h.view (f := Scope.guids) fun _ => rfl

/-- A change that does not look at the place and the diagnostics. -/
theorem map {f : Scope → Scope} (hf : ∀ s, (f s.bare).bare = (f s).bare) : (f s).SameButNotes (f t) :=
  h.view (f := fun s => (f s).bare) hf

theorem inLoops (loops : List (String × Int)) : (s.inLoops loops).SameButNotes (t.inLoops loops) := h.map fun _ => rfl

theorem enterLoop (name : String) (i : Int) :
    SameButNotes { s with loops := (name, i) :: s.loops } { t with loops := (name, i) :: t.loops } :=
  h.map (f := fun s => { s with loops := (name, i) :: s.loops }) fun _ => rfl

theorem leaveLoop : SameButNotes { s with loops := s.loops.tail } { t with loops := t.loops.tail } :=
  h.map (f := fun s => { s with loops := s.loops.tail }) fun _ => rfl

theorem atPointers (pointer pointer' : String) :
    SameButNotes { s with pointer } { t with pointer := pointer' } := h

theorem put (x : SlotName) (slot : Slot) : (s.put x slot).SameButNotes (t.put x slot) := by
  obtain ⟨table, key⟩ := x
  cases table <;> exact h.map fun _ => rfl

theorem drop (x : SlotName) : (s.drop x).SameButNotes (t.drop x) := by
  obtain ⟨table, key⟩ := x
  cases table <;> exact h.map fun _ => rfl

theorem enter (x : SlotName) : (s.enter x).SameButNotes (t.enter x) := (h.put x .inProgress).inLoops []

theorem remember (v : Json) : (s.remember v).SameButNotes (t.remember v) := by
  refine h.map (f := fun s => s.remember v) fun s => ?_
  unfold Scope.remember
  change (if isTrackable v && !(s.secure.any fun x => x.eqUnordered v) then _ else _ : Scope).bare = _
  split <;> rfl

theorem report (deployment pointer pointer' : String) (x y : Diagnostic) :
    (s.report deployment pointer x).SameButNotes (t.report deployment pointer' y) := by
  unfold SameButNotes
  rw [bare_report, bare_report]
  exact h

end SameButNotes
end Scope

namespace Deployment

variable {d : Deployment} {l : Ledger} {s t : Scope}

theorem keep_sameButNotes (h : s.SameButNotes t) (x : Request) (v : Json) :
    (d.keep x v s).SameButNotes (d.keep x v t) := by
  refine Scope.SameButNotes.put ?_ x.slot _
  unfold remember
  split
  · split
    · exact h.remember v
    · exact h
  · exact h

theorem settle_sameButNotes (h : s.SameButNotes t) (x : Request) {o o' : Except ExprError Json × Scope}
    (hr : o'.1 = o.1) (ho : o.2.SameButNotes o'.2) :
    (d.settle x t o').1 = (d.settle x s o).1 ∧ (d.settle x s o).2.SameButNotes (d.settle x t o').2 := by
  obtain ⟨r, u⟩ := o
  obtain ⟨r', u'⟩ := o'
  obtain rfl : r' = r := hr
  cases r' with
  | error e =>
    refine ⟨rfl, ?_⟩
    dsimp only [settle]
    rw [h.loops]
    exact (ho.drop x.slot).inLoops _
  | ok v =>
    refine ⟨rfl, ?_⟩
    dsimp only [settle]
    rw [h.loops]
    exact (keep_sameButNotes ho x v).inLoops _

theorem sameButNotes_encloses :
    (Accord.between Scope.SameButNotes : Accord ExpandError Scope).Encloses (Accord.between Scope.SameButNotes) Eq where
  inside := Accord.between_evaluates _
  append _ h := congrArg (· ++ _) h
  lift {α f p q} hpq _ _ s t h := by
    subst hpq
    exact ⟨rfl, h⟩
  atPlace {α m n p q} hpq hm s t h := by
    subst hpq
    rw [ScopeM.outcome_atPlace, ScopeM.outcome_atPlace]
    obtain ⟨hr, hu⟩ := hm _ _ (h.atPointers p p)
    exact ⟨congrArg (Except.mapError (ExpandError.expression p)) hr, hu.atPointers _ _⟩
  withLoop {α m n} name i hm s t h := by
    rw [ScopeM.outcome_withLoop, ScopeM.outcome_withLoop]
    obtain ⟨hr, hu⟩ := hm _ _ (h.enterLoop name i)
    exact ⟨hr, hu.leaveLoop⟩
  refl _ := rfl
  toEval {α m n} hm s t h := by
    rw [ScopeM.outcome_toEval, ScopeM.outcome_toEval]
    obtain ⟨hr, hu⟩ := hm s t h
    exact ⟨congrArg (Except.mapError ExpandError.toExprError) hr, hu⟩

theorem accords_sameButNotes (d : Deployment) (l : Ledger) : d.Accords l l (.between Scope.SameButNotes) .all where
  evaluates := Accord.between_evaluates _
  copyIndex loop := Accord.between_ask fun s t h => h.view (f := fun s => s.copyIndex loop) fun _ => rfl
  newGuid _ := Accord.between_act fun s t h => by
    refine ⟨?_, h.map (f := fun s => (d.newGuid s).2) fun _ => rfl⟩
    exact h.view (f := fun s => (d.newGuid s).1) fun _ => rfl
  remark _ := Accord.between_act fun s t h => ⟨rfl, h.report _ _ _ _ _⟩
  resolve _ view target := by
    unfold resolve
    split
    · exact Accord.between_throw _
    · exact .pure _
    · exact Accord.between_throw _
    · exact Accord.between_throw _
    · exact Accord.between_throw _
    · exact Accord.between_throw _
    · exact (Accord.between_modify fun s t h => h.report _ _ _ _ _).bind fun _ => .pure _

/-- Requests have the same answer in scopes that differ in notes, if evaluations have. -/
theorem request_sameButNotes {E : Evaluations} (hE : E.Agree (.between Scope.SameButNotes) Eq Callees.all.Admits E)
    (x : Request) : (Accord.between Scope.SameButNotes).Agree (d.request E x) (d.request E x) := by
  intro s t h
  have hslots := h.slot? x.slot
  cases hslot : s.slot? x.slot with
  | some slot =>
    rw [hslot] at hslots
    cases slot with
    | inProgress =>
      rw [request_running (Scope.running_iff.mpr hslot), request_running (Scope.running_iff.mpr hslots)]
      exact ⟨rfl, h⟩
    | evaluated v =>
      rw [request_evaluated hslot, request_evaluated hslots]
      exact ⟨rfl, h⟩
  | none =>
    rw [hslot] at hslots
    rw [request_free hslot, request_free hslots]
    have hanswer := hE.answer sameButNotes_encloses (Origin.Near.refl (fun _ => rfl) (d.origin x))
      (d.origin x).cover_all fun _ => d.definite_origin
    obtain ⟨hr, hu⟩ := hanswer _ _ (h.enter x.slot)
    exact settle_sameButNotes h x hr hu

/-- No answer of a deployment depends on places and diagnostics. -/
theorem hostAt_sameButNotes (d : Deployment) (l : Ledger) (depth : Nat) :
    HostsAgree (.between Scope.SameButNotes) .all (d.hostAt l depth) (d.hostAt l depth) := by
  have hcalls (ns name : String) (hn : Callees.all.defined ns name) (arguments : List Json) :=
    (d.accords_sameButNotes l).callFunction (Accord.between_throw _) (fun _ _ _ _ _ => Callees.cover_all _)
      d.callDepth hn arguments
  rw [hostAt_eq]
  induction depth with
  | zero => exact (d.accords_sameButNotes l).hostBy hcalls fun _ => Accord.between_throw _
  | succ depth ih =>
    exact (d.accords_sameButNotes l).hostBy hcalls fun x =>
      request_sameButNotes (d.evaluations_agree sameButNotes_encloses ih) x

end Deployment
end

mutual

def Json.innerMembers : Json → List (String × Json)
  | .arr items => itemsInner items
  | .obj members => membersInner members
  | _ => []

def itemsInner : List Json → List (String × Json)
  | [] => []
  | v :: vs => v.innerMembers ++ itemsInner vs

def membersInner : List (String × Json) → List (String × Json)
  | [] => []
  | (k, v) :: rest => (k, v) :: (v.innerMembers ++ membersInner rest)

end

/-- A step at places of the template and an evaluation that give the same from scopes that differ in notes, and leave
such scopes. A failure of the step tells the place of an expression. -/
def Corresponds {α : Type} (m : ScopeM α) (n : EvalM Scope α) : Prop :=
  ∀ s t, s.SameButNotes t → (∃ pointer, (outcome m s).1 = (outcome n t).1.mapError (.expression pointer)) ∧
    (outcome m s).2.SameButNotes (outcome n t).2

namespace Corresponds

variable {α β : Type}

theorem pure (a : α) : Corresponds (pure a) (pure a) := fun _ _ h => ⟨⟨"", rfl⟩, h⟩

theorem bind {m : ScopeM α} {n : EvalM Scope α} {f : α → ScopeM β} {g : α → EvalM Scope β} (hm : Corresponds m n)
    (hf : ∀ a, Corresponds (f a) (g a)) : Corresponds (m >>= f) (n >>= g) := by
  intro s t h
  obtain ⟨⟨pointer, hr⟩, hu⟩ := hm s t h
  rw [outcome_bind, outcome_bind]
  generalize outcome m s = o at hr hu
  generalize outcome n t = o' at hr hu
  obtain ⟨r, u⟩ := o
  obtain ⟨r', u'⟩ := o'
  cases r' with
  | error e =>
    obtain rfl : r = .error (.expression pointer e) := hr
    exact ⟨⟨pointer, rfl⟩, hu⟩
  | ok a =>
    obtain rfl : r = .ok a := hr
    exact hf a u u' hu

end Corresponds

section
variable {h : Host Scope} (hh : HostsAgree (.between Scope.SameButNotes) .all h h)
include hh

theorem corresponds_string (pointer w : String) :
    Corresponds (Value.onHost h pointer w) (TemplateString.eval h w) := by
  unfold Value.onHost
  split
  · intro s t hs
    rw [ScopeM.outcome_atPlace]
    obtain ⟨hr, hu⟩ := agree_templateString (Accord.between_evaluates _) hh w (Callees.cover_all _)
      { s with pointer } t (hs.atPointers pointer t.pointer)
    exact ⟨⟨pointer, congrArg (Except.mapError (ExpandError.expression pointer)) hr.symm⟩,
      hu.atPointers s.pointer (outcome (TemplateString.eval h w) t).2.pointer⟩
  · rename_i hw
    have hw : w.toList.head? ≠ some '[' := by simpa using hw
    obtain ⟨text, hp, -⟩ := TemplateString.exists_literal (Expr.isExpression_eq_false hw)
    have heval : TemplateString.eval h w = Pure.pure (.str w) := by
      rw [TemplateString.eval_eq, hp, TemplateString.eq_of_literal hw hp]
    rw [heval]
    exact .pure _

/-- A key that is no expression is read as a literal in one evaluation and is left as it is in the other. -/
theorem corresponds_key (pointer : String) {k : String} (hk : ¬ TemplateString.Escaped k) :
    Corresponds (Value.key (Value.onHost h) pointer k) (evalKey h k) := by
  unfold evalKey
  split
  · rename_i he
    have hb : k.toList.head? = some '[' := by
      by_contra hb
      rw [Expr.isExpression_eq_false hb] at he
      cases he
    unfold Value.key
    rw [hb, if_pos (beq_self_eq_true _)]
    exact (corresponds_string hh pointer k).bind fun _ => .pure _
  · rename_i he
    obtain ⟨text, hp, -⟩ := TemplateString.exists_literal (Bool.eq_false_iff.mpr he)
    obtain rfl := TemplateString.eq_of_not_escaped hk hp
    intro s t hs
    rw [Value.outcome_key_literal h pointer s hp]
    exact ⟨⟨pointer, rfl⟩, hs⟩

end

variable {h : Host Scope} {maxCount : Nat}

mutual

theorem corresponds_eval (hh : HostsAgree (.between Scope.SameButNotes) .all h h) (pointer : String) : (v : Json) →
    (∀ e ∈ v.innerMembers, Value.isCopy e.1 e.2 = false ∧ ¬ TemplateString.Escaped e.1) →
    Corresponds (Value.eval maxCount (Value.onHost h) pointer v) (evalValue h v)
  | .str w, _ => corresponds_string hh pointer w
  | .arr items, hm => (corresponds_evalItems hh pointer 0 items hm).bind fun _ => .pure _
  | .obj members, hm => (corresponds_evalMembers hh pointer [] members hm).bind fun _ => .pure _
  | .null, _ => .pure _
  | .bool _, _ => .pure _
  | .num _, _ => .pure _

theorem corresponds_evalItems (hh : HostsAgree (.between Scope.SameButNotes) .all h h) (pointer : String) (i : Nat) :
    (vs : List Json) →
    (∀ e ∈ itemsInner vs, Value.isCopy e.1 e.2 = false ∧ ¬ TemplateString.Escaped e.1) →
    Corresponds (Value.evalItems maxCount (Value.onHost h) pointer i vs) (evalItems h vs)
  | [], _ => .pure _
  | v :: vs, hm => by
    obtain ⟨hv, hvs⟩ := List.forall_mem_append.mp hm
    exact (corresponds_eval hh _ v hv).bind fun _ =>
      (corresponds_evalItems hh pointer (i + 1) vs hvs).bind fun _ => .pure _

theorem corresponds_evalMembers (hh : HostsAgree (.between Scope.SameButNotes) .all h h) (pointer : String)
    (acc : Entries Json) : (es : List (String × Json)) →
    (∀ e ∈ membersInner es, Value.isCopy e.1 e.2 = false ∧ ¬ TemplateString.Escaped e.1) →
    Corresponds (Value.evalMembers maxCount (Value.onHost h) pointer acc es) (evalEntries h acc es)
  | [], _ => .pure _
  | (k, v) :: rest, hm => by
    obtain ⟨⟨hcopy, hk⟩, hm⟩ := List.forall_mem_cons.mp hm
    obtain ⟨hv, hrest⟩ := List.forall_mem_append.mp hm
    rw [Value.evalMembers, if_neg (by rw [hcopy]; exact Bool.false_ne_true)]
    exact (corresponds_key hh _ hk).bind fun _ => (corresponds_eval hh _ v hv).bind fun _ =>
      corresponds_evalMembers hh pointer _ rest hrest

end

namespace Deployment

/-- A value without copies and without escaped keys is evaluated in both ways to the same, or both fail for the same
reason. The scopes that are left differ in their diagnostics at most, which tell other places. -/
theorem eval_evalValue (d : Deployment) (l : Ledger) (pointer : String) (v : Json) (s : Scope)
    (hcopy : ∀ e ∈ v.innerMembers, Value.isCopy e.1 e.2 = false)
    (hkeys : ∀ e ∈ v.innerMembers, ¬ TemplateString.Escaped e.1) :
    (∃ place, (outcome (d.eval l pointer v) s).1 =
      (outcome (evalValue (d.host l) v) s).1.mapError (.expression place)) ∧
    (outcome (d.eval l pointer v) s).2.SameButNotes (outcome (evalValue (d.host l) v) s).2 :=
  corresponds_eval (d.hostAt_sameButNotes l _) pointer v
    (fun e he => ⟨hcopy e he, hkeys e he⟩) s s (.refl s)

def shouting : Deployment :=
  plain [⟨"p", .string, some (.str "w"), none, false⟩] []
    [⟨"f", "shout", [("x", .string)], .string, .str "[concat(parameters('x'), '!')]"⟩]

/-- A value with expressions and a literal as keys, an escaped text, and an empty list of copies, which is none. -/
def mixedValue : Json :=
  .obj [("[concat('a', 'b')]", .str "[parameters('p')]"),
    ("[k", .arr [.str "[[x]", .str "[f.shout(parameters('p'))]", .obj [("copy", .arr [])]])]

theorem eval_evalValue_mixed :
    (∀ e ∈ mixedValue.innerMembers, Value.isCopy e.1 e.2 = false) ∧
    (∀ e ∈ mixedValue.innerMembers, ¬ TemplateString.Escaped e.1) ∧
    (outcome (shouting.eval (.ofDeclarations []) "/outputs/o" mixedValue) {}).1.toOption.map Json.display =
      some "\x7b\"ab\":\"w\",\"[k\":[\"[x]\",\"w!\",\x7b\"copy\":[]\x7d]\x7d" ∧
    ∃ place, (outcome (shouting.eval (.ofDeclarations []) "/outputs/o" mixedValue) {}).1 =
      (outcome (evalValue (shouting.host (.ofDeclarations [])) mixedValue) {}).1.mapError (.expression place) := by
  have hcopy : ∀ e ∈ mixedValue.innerMembers, Value.isCopy e.1 e.2 = false := by decide +kernel
  have hkeys : ∀ e ∈ mixedValue.innerMembers, ¬ TemplateString.Escaped e.1 := by decide +kernel
  exact ⟨hcopy, hkeys, by decide +kernel,
    (eval_evalValue shouting (.ofDeclarations []) "/outputs/o" mixedValue {} hcopy hkeys).1⟩

/-- An escaped bracket that begins a key is read in one evaluation and kept as it is written in the other. -/
theorem evalValue_keeps_escaped :
    (outcome (shouting.eval (.ofDeclarations []) "/outputs/o" (.obj [("[[k]", .null)])) {}).1 =
      .ok (.obj [("[k]", .null)]) ∧
    (outcome (evalValue (shouting.host (.ofDeclarations [])) (.obj [("[[k]", .null)])) {}).1 =
      .ok (.obj [("[[k]", .null)]) :=
  ⟨rfl, rfl⟩

end Deployment
end ResourceTemplate
