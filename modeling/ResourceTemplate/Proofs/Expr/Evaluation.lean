import ResourceTemplate.Expr.Standalone
import ResourceTemplate.Expr.Value
import ResourceTemplate.Proofs.Accord
import ResourceTemplate.Proofs.Expr.Congruence
import ResourceTemplate.Proofs.Expr.Lambdas
import ResourceTemplate.Proofs.Expr.Spans

namespace ResourceTemplate.Expr

variable {σ : Type}

mutual

theorem shift_zero : (e : Expr) → e.shift 0 = e
  | .str _ => rfl
  | .int _ _ => rfl
  | .bool _ => rfl
  | .null => rfl
  | .call ns name args span => congrArg (Expr.call ns name · span) (shiftAll_zero args)
  | .property target name span => congrArg (Expr.property · name span) (shift_zero target)
  | .index target i span => congrArg₂ (Expr.index · · span) (shift_zero target) (shift_zero i)

theorem shiftAll_zero : (es : List Expr) → shiftAll 0 es = es
  | [] => rfl
  | e :: es => congrArg₂ List.cons (shift_zero e) (shiftAll_zero es)

end

theorem shiftAll_eq_map (k : Nat) (es : List Expr) : shiftAll k es = es.map (shift k) := by
  induction es with
  | nil => rfl
  | cons e es ih => rw [shiftAll, ih, List.map_cons]

def CallSite.shift (k : Nat) (c : CallSite) : CallSite := { c with span := c.span.shift k }

mutual

theorem calls_shift (k : Nat) : (e : Expr) → (e.shift k).calls = e.calls.map (CallSite.shift k)
  | .str _ => rfl
  | .int _ _ => rfl
  | .bool _ => rfl
  | .null => rfl
  | .call ns name args span => by
    rw [shift, calls, calls, callsOf_shiftAll k args]
    rfl
  | .property target _ _ => calls_shift k target
  | .index target i _ => by rw [shift, calls, calls, calls_shift k target, calls_shift k i, List.map_append]

theorem callsOf_shiftAll (k : Nat) : (es : List Expr) → callsOf (shiftAll k es) = (callsOf es).map (CallSite.shift k)
  | [] => rfl
  | e :: es => by rw [shiftAll, callsOf, callsOf, calls_shift k e, callsOf_shiftAll k es, List.map_append]

end

/-! Lambdas. -/

theorem text?_shift (k : Nat) (e : Expr) : text? (e.shift k) = text? e := by
  cases e <;> rfl

theorem texts_shiftAll (k : Nat) (es : List Expr) : (shiftAll k es).map text? = es.map text? := by
  rw [shiftAll_eq_map, List.map_map]
  exact List.map_congr_left fun e _ => text?_shift k e

theorem parts?_shift (k : Nat) (e : Expr) : parts? (e.shift k) = (parts? e).map (shiftAll k) := by
  cases e with
  | call ns name args span =>
    cases ns with
    | none =>
      simp only [shift, parts?]
      split <;> rfl
    | some ns => rfl
  | _ => rfl

/-! Remarks. -/

def unknownRemark (name : String) (offset : Nat) : String :=
  "Unknown function '" ++ name ++ "' at offset " ++ Args.count offset ++ " in an if() branch that was not taken"

def unknownCalls (e : Expr) : List CallSite := e.calls.filter fun c => c.ns.isNone && !Catalog.isKnown c.name

theorem remarkUnknown_shift (h : Host σ) (k : Nat) (e : Expr) :
    remarkUnknown h (e.shift k) = e.unknownCalls.forM fun c => h.remark (unknownRemark c.name (c.span.start + k)) := by
  change ((e.shift k).calls.filter fun c => c.ns.isNone && !Catalog.isKnown c.name).forM
    (fun c => h.remark (unknownRemark c.name c.span.start)) = _
  rw [calls_shift, List.filter_map]
  unfold unknownCalls
  change (List.map _ (e.calls.filter fun c => c.ns.isNone && !Catalog.isKnown c.name)).forM _ = _
  induction e.calls.filter fun c => c.ns.isNone && !Catalog.isKnown c.name with
  | nil => rfl
  | cons c cs ih => exact congrArg (h.remark (unknownRemark c.name (c.span.start + k)) >>= ·) (funext fun _ => ih)

/-- Whether it makes no difference between two hosts that the places of an expression are moved by two distances. -/
structure Displaces (A : Accord ExprError σ) (i j : Nat) (h k : Host σ) : Prop where
  remark (name : String) (offset : Nat) :
    A.Agree (h.remark (unknownRemark name (offset + i))) (k.remark (unknownRemark name (offset + j)))
  refuse {α : Type} (name : String) (offset : Nat) :
    A.Agree (throw (.unknownFunction name (offset + i)) : EvalM σ α) (throw (.unknownFunction name (offset + j)))

theorem Displaces.remarkUnknown {A : Accord ExprError σ} {i j : Nat} {h k : Host σ} (hd : Displaces A i j h k)
    (e : Expr) : A.Agree (remarkUnknown h (e.shift i)) (remarkUnknown k (e.shift j)) := by
  rw [remarkUnknown_shift, remarkUnknown_shift]
  refine Accord.Agree.forM (fun c => ?_) e.unknownCalls
  exact hd.remark c.name c.span.start

end ResourceTemplate.Expr

/-!
Two hosts. An expression agrees wherever in it the host is asked: in arguments, lambdas, comparisons of a sort or
branches. Only the functions that it calls need agree. The expression may stand at two places, as far as the hosts make
no difference between them.
-/

namespace ResourceTemplate

variable {σ : Type} {A : Accord ExprError σ} {C : Callees} {S : Discipline ExprError σ} {p q : Nat}

namespace Expr

namespace Meaning

/-- Two meanings of one expression, moved by two distances, whose values and bodies agree. -/
structure Agrees (A : Accord ExprError σ) (p q : Nat) (m n : Meaning σ) : Prop where
  expr : ∃ e : Expr, m.expr = e.shift p ∧ n.expr = e.shift q
  value : ∀ scopes, A.Agree (m.value scopes) (n.value scopes)
  body : ∀ scopes, A.Agree (m.body scopes) (n.body scopes)

abbrev AllAgree (A : Accord ExprError σ) (p q : Nat) : List (Meaning σ) → List (Meaning σ) → Prop :=
  List.Forall₂ (Agrees A p q)

section
variable (hA : A.Evaluates)
include hA

/-- Meanings of an expression at two places agree inside the same lambdas, as far as the hosts make no difference
between the places. -/
theorem Agrees.inside {h k : Host σ} (hd : Displaces A p q h k) {m n : Meaning σ} (ha : m.Agrees A p q n)
    (scopes : Scopes) : AgreesInside A h k scopes scopes m n where
  value := ha.value scopes
  remark := by
    obtain ⟨e, hm, hn⟩ := ha.expr
    rw [hm, hn]
    exact hd.remarkUnknown e
  lambda := by
    obtain ⟨e, hm, hn⟩ := ha.expr
    rw [hm, hn, parts?_shift, parts?_shift]
    cases parts? e with
    | none => exact .none
    | some parts =>
      have htexts : (shiftAll p parts).map text? = (shiftAll q parts).map text? := by
        rw [texts_shiftAll, texts_shiftAll]
      exact .some fun vs => agree_apply hA htexts (fun _ _ => ha.body _) vs

end
end Meaning

theorem leaf_agrees (hA : A.Evaluates) (e : Expr) {r : Except ExprError Json} (hr : Definite r) :
    (leaf (e.shift p) r : Meaning σ).Agrees A p q (leaf (e.shift q) r) :=
  ⟨⟨e, rfl, rfl⟩, fun _ => hA.lift hr, fun _ => hA.throw rfl⟩

variable {h k : Host σ}

mutual

/-- An expression at two places agrees on hosts that agree as far as it calls and make no difference between the
places. -/
theorem shifted_agrees (hA : A.Evaluates) (hk : HostsAgree A C h k) (hd : Displaces A p q h k) :
    (e : Expr) → C.Cover e.calls → (meaning h (e.shift p)).Agrees A p q (meaning k (e.shift q))
  | .str s, _ => leaf_agrees hA (.str s) (.ok _)
  | .int literal span, _ => leaf_agrees hA (.int literal span) (definite_integerValue literal)
  | .bool b, _ => leaf_agrees hA (.bool b) (.ok _)
  | .null, _ => leaf_agrees hA .null (.ok _)
  | .property target name span, hc => by
    refine ⟨⟨.property target name span, rfl, rfl⟩, fun scopes => ?_, fun _ => hA.throw rfl⟩
    exact ((shifted_agrees hA hk hd target hc).value scopes).bind fun v =>
      hA.lift (definite_propertyOf v name)
  | .index target i span, hc => by
    obtain ⟨ht, hi⟩ := Callees.cover_append.mp hc
    refine ⟨⟨.index target i span, rfl, rfl⟩, fun scopes => ?_, fun _ => hA.throw rfl⟩
    exact ((shifted_agrees hA hk hd target ht).value scopes).bind fun v =>
      ((shifted_agrees hA hk hd i hi).value scopes).bind fun w => hA.lift (definite_elementOf v w)
  | .call ns name args span, hc => by
    obtain ⟨hn, hargs⟩ := Callees.cover_cons.mp hc
    have ha := allShifted_agree hA hk hd args hargs
    have hinside (scopes : Scopes) := ha.imp fun _ _ hm => hm.inside hA hd scopes
    refine ⟨⟨.call ns name args span, rfl, rfl⟩, fun scopes => ?_, fun scopes => Meaning.agree_last hA (hinside scopes)⟩
    refine Meaning.agree_call hA hk ns name (span.shift p) (span.shift q) hn (hd.refuse name span.start)
      (hinside scopes) fun _ _ m n hm hn => ?_
    have hargs := hinside scopes
    rw [hm, hn] at hargs
    exact Meaning.agree_lambdaVariable hA (List.forall₂_cons.mp hargs).1 fun _ => rfl

theorem allShifted_agree (hA : A.Evaluates) (hk : HostsAgree A C h k) (hd : Displaces A p q h k) :
    (es : List Expr) → C.Cover (callsOf es) →
      Meaning.AllAgree A p q (meanings h (shiftAll p es)) (meanings k (shiftAll q es))
  | [], _ => .nil
  | e :: es, hc => by
    obtain ⟨he, hes⟩ := Callees.cover_append.mp hc
    exact .cons (shifted_agrees hA hk hd e he) (allShifted_agree hA hk hd es hes)

end

theorem displaces_none (hA : A.Evaluates) (hk : HostsAgree A C h k) : Displaces A 0 0 h k where
  remark _ _ := hk.remark _
  refuse _ _ := hA.throw rfl

theorem eval_agrees (hA : A.Evaluates) (hk : HostsAgree A C h k) (e : Expr) (hc : C.Cover e.calls) (scopes : Scopes) :
    A.Agree (eval h scopes e) (eval k scopes e) := by
  have ha := (shifted_agrees hA hk (displaces_none hA hk) e hc).value scopes
  rwa [shift_zero] at ha

end Expr

variable {h k : Host σ}

theorem TemplateString.eval_eq (h : Host σ) (s : String) :
    TemplateString.eval h s =
      match TemplateString.parse s with
      | .error e => throw (.parse e)
      | .ok (.literal text) => return .str text
      | .ok (.expression e) => Expr.eval h [] e := rfl

theorem agree_templateString (hA : A.Evaluates) (hk : HostsAgree A C h k) (s : String)
    (hc : C.Cover (TemplateString.calls s)) :
    A.Agree (TemplateString.eval h s) (TemplateString.eval k s) := by
  unfold TemplateString.calls at hc
  rw [TemplateString.eval_eq, TemplateString.eval_eq]
  cases hp : TemplateString.parse s with
  | error e => exact hA.throw rfl
  | ok t =>
    rw [hp] at hc
    cases t with
    | literal text => exact .pure _
    | expression e => exact Expr.eval_agrees hA hk e hc []

section
variable {R R' : Reading}

theorem agree_evalKey {key : String}
    (hs : A.Agree (@TemplateString.eval R σ h key) (@TemplateString.eval R' σ k key)) :
    A.Agree (@evalKey R σ h key) (@evalKey R' σ k key) :=
  .ite (hs.bind fun _ => .pure _) (.pure _)

mutual

theorem agree_evalValue_of : (v : Json) →
    (∀ s ∈ v.texts, A.Agree (@TemplateString.eval R σ h s) (@TemplateString.eval R' σ k s)) →
    A.Agree (@evalValue R σ h v) (@evalValue R' σ k v)
  | .str s, hs => hs s (List.mem_singleton_self s)
  | .arr items, hs => (agree_evalItems items hs).bind fun _ => .pure _
  | .obj entries, hs => (agree_evalEntries [] entries hs).bind fun _ => .pure _
  | .null, _ => .pure _
  | .bool _, _ => .pure _
  | .num _, _ => .pure _

theorem agree_evalItems : (vs : List Json) →
    (∀ s ∈ itemsTexts vs, A.Agree (@TemplateString.eval R σ h s) (@TemplateString.eval R' σ k s)) →
    A.Agree (@evalItems R σ h vs) (@evalItems R' σ k vs)
  | [], _ => .pure _
  | v :: vs, hs => by
    obtain ⟨hv, hvs⟩ := List.forall_mem_append.mp hs
    exact (agree_evalValue_of v hv).bind fun _ => (agree_evalItems vs hvs).bind fun _ => .pure _

theorem agree_evalEntries (acc : Entries Json) : (es : List (String × Json)) →
    (∀ s ∈ membersTexts es, A.Agree (@TemplateString.eval R σ h s) (@TemplateString.eval R' σ k s)) →
    A.Agree (@evalEntries R σ h acc es) (@evalEntries R' σ k acc es)
  | [], _ => .pure _
  | (key, v) :: es, hs => by
    obtain ⟨hkey, hs⟩ := List.forall_mem_cons.mp hs
    obtain ⟨hv, hes⟩ := List.forall_mem_append.mp hs
    exact (agree_evalKey hkey).bind fun _ => (agree_evalValue_of v hv).bind fun _ =>
      agree_evalEntries _ es hes

end

end

/-- A value whose strings are evaluated agrees on hosts that agree as far as it calls. -/
theorem agree_evalValue (hA : A.Evaluates) (hk : HostsAgree A C h k) (v : Json) (hc : C.Cover v.calls) :
    A.Agree (evalValue h v) (evalValue k v) :=
  agree_evalValue_of v fun s hs => agree_templateString hA hk s (Callees.cover_calls.mp hc s hs)

end ResourceTemplate

/-!
Hosts that overlook offsets. The remark on an unknown function quotes where it is called. A host that does not look at
what is quoted gives an expression the same value wherever it stands, and is left in the same state but for what is
quoted.
-/

namespace ResourceTemplate

def Expr.SameRemark (text other : String) : Prop :=
  text = other ∨ ∃ name i j, text = unknownRemark name i ∧ other = unknownRemark name j

namespace Host

variable {σ : Type} {h : Host σ} {R : σ → σ → Prop}

/-- Whether a host takes states for the same that are related, and does not look at the offset that a remark quotes:
its answers are the same in such states, and lead to such states. -/
structure Overlooks (h : Host σ) (R : σ → σ → Prop) : Prop where
  refl (s : σ) : R s s
  answers : HostsAgree (Accord.following R) .all h h
  remarks (name : String) (i j : Nat) {s t : σ} :
    R s t → R (h.warn (Expr.unknownRemark name i) s) (h.warn (Expr.unknownRemark name j) t)

namespace Overlooks

variable (ho : h.Overlooks R)
include ho

theorem displaces (i j : Nat) : Expr.Displaces (Accord.following R) i j h h where
  remark name _ := Accord.following_remark fun _ _ => ho.remarks name _ _
  refuse _ _ := Accord.following_throw _ _

theorem eval_shift {e : Expr} {i : Nat} {scopes : Expr.Scopes} {s t s' : σ} {v : Json}
    (heval : outcome (Expr.eval h scopes (e.shift i)) s = (.ok v, t)) (hs : R s s') (j : Nat) :
    ∃ t', outcome (Expr.eval h scopes (e.shift j)) s' = (.ok v, t') ∧ R t t' := by
  have hagree := Expr.shifted_agrees (Accord.following_evaluates R) ho.answers (ho.displaces i j) e
    (Callees.cover_all _)
  exact hagree.value scopes s s' hs v t heval

end Overlooks
end Host

namespace Standalone

/-- States that are the same but for the texts of warnings, which are related in turn. -/
def SameButWarnings (Q : String → String → Prop) (s t : Standalone) : Prop :=
  ∃ warnings, t = { s with warnings } ∧ List.Forall₂ Q s.warnings warnings

/-- States that are the same but for the offsets that warnings quote. -/
def SameButOffsets (s t : Standalone) : Prop :=
  ∃ warnings, t = { s with warnings } ∧ List.Forall₂ Expr.SameRemark s.warnings warnings

theorem sameButOffsets_eq : SameButOffsets = SameButWarnings Expr.SameRemark := rfl

section

variable {Q : String → String → Prop}

theorem SameButWarnings.warn {s t : Standalone} (h : s.SameButWarnings Q t) {text other : String} (hQ : Q text other) :
    (host.warn text s).SameButWarnings Q (host.warn other t) := by
  obtain ⟨warnings, rfl, hw⟩ := h
  exact ⟨warnings ++ [other], rfl, List.rel_append hw (.cons hQ .nil)⟩

variable (hQ : ∀ text, Q text text)
include hQ

theorem SameButWarnings.refl (s : Standalone) : s.SameButWarnings Q s :=
  ⟨s.warnings, rfl, List.forall₂_same.mpr fun _ _ => hQ _⟩

/-- No answer of a host without a deployment depends on warnings. -/
theorem answers_sameButWarnings : HostsAgree (Accord.following (SameButWarnings Q)) .all host host where
  parameterValue _ := Accord.following_ask fun _ _ ⟨_, h, _⟩ => h ▸ rfl
  variableValue _ := Accord.following_ask fun _ _ ⟨_, h, _⟩ => h ▸ rfl
  copyIndex _ := Accord.following_ask fun _ _ ⟨_, h, _⟩ => h ▸ rfl
  reference _ _ _ := Accord.following_throw _ _
  resourceInfo _ _ := Accord.following_throw _ _
  userFunction _ _ _ _ := Accord.following_throw _ _
  deployment _ := .pure _
  newGuid _ := Accord.following_act fun _ _ ⟨warnings, h, hw⟩ => h ▸ ⟨rfl, warnings, rfl, hw⟩
  remark _ := Accord.following_remark fun _ _ hs => hs.warn (hQ _)
  read hf := Accord.following_read fun _ _ ⟨_, h, _⟩ => hf host host _ _ (h ▸ rfl)

end

/-- A host without a deployment keeps every warning as it is, so states differ in the quoted offsets alone. -/
theorem host_overlooks : host.Overlooks SameButOffsets := by
  rw [sameButOffsets_eq]
  exact ⟨.refl fun _ => .inl rfl, answers_sameButWarnings fun _ => .inl rfl,
    fun name i j _ _ hs => hs.warn (.inr ⟨name, i, j, rfl, rfl⟩)⟩

end Standalone
end ResourceTemplate
