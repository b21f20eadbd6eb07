import Mathlib.Data.List.Forall2
import ResourceTemplate.Deployment.Scope
import ResourceTemplate.Expander.Progress
import ResourceTemplate.Expr.Eval

namespace ResourceTemplate

section

variable {ε σ α β : Type}

theorem bind_eq_ok {m : Except ε α} {f : α → Except ε β} {b : β} :
    m >>= f = .ok b ↔ ∃ a, m = .ok a ∧ f a = .ok b := by
  cases m with
  | error e => simp [bind, Except.bind]
  | ok a => simp [bind, Except.bind]

theorem toOption_eq_some {r : Except ε α} {a : α} : r.toOption = some a ↔ r = .ok a := by
  cases r <;> simp [Except.toOption]

theorem Json.bind_str?_eq_some {v : Option Json} {s : String} : v.bind Json.str? = some s ↔ v = some (.str s) := by
  cases v with
  | none => simp
  | some v => cases v <;> simp [Json.str?]

theorem mapError_eq_ok {ε' : Type} {f : ε → ε'} {r : Except ε α} {a : α} :
    r.mapError f = .ok a ↔ r = .ok a := by
  cases r <;> simp [Except.mapError]

theorem mapError_eq_error {ε' : Type} {f : ε → ε'} {r : Except ε α} {e : ε'} :
    r.mapError f = .error e ↔ ∃ e', r = .error e' ∧ f e' = e := by
  cases r <;> simp [Except.mapError]

def failure? (r : Except ε α) : Option ε :=
  match r with
  | .error e => some e
  | .ok _ => none

theorem failure?_eq_some {r : Except ε α} {e : ε} : failure? r = some e ↔ r = .error e := by
  cases r <;> simp [failure?]

def outcome (m : ExceptT ε (StateM σ) α) (s : σ) : Except ε α × σ := m.run.run s

@[simp] theorem outcome_pure (a : α) (s : σ) :
    outcome (pure a : ExceptT ε (StateM σ) α) s = (.ok a, s) := rfl

@[simp] theorem outcome_throw (e : ε) (s : σ) :
    outcome (throw e : ExceptT ε (StateM σ) α) s = (.error e, s) := rfl

@[simp] theorem outcome_get (s : σ) :
    outcome (get : ExceptT ε (StateM σ) σ) s = (.ok s, s) := rfl

@[simp] theorem outcome_modify (f : σ → σ) (s : σ) :
    outcome (modify f : ExceptT ε (StateM σ) PUnit) s = (.ok ⟨⟩, f s) := rfl

theorem outcome_bind (m : ExceptT ε (StateM σ) α) (f : α → ExceptT ε (StateM σ) β) (s : σ) :
    outcome (m >>= f) s =
      match outcome m s with
      | (.ok a, t) => outcome (f a) t
      | (.error e, t) => (.error e, t) := by
  change (match m s with | (r, t) => (ExceptT.bindCont f r) t) = _
  unfold outcome ExceptT.run StateT.run
  rcases m s with ⟨e | a, t⟩ <;> rfl

theorem outcome_bind_eq_ok {m : ExceptT ε (StateM σ) α} {f : α → ExceptT ε (StateM σ) β}
    {s u : σ} {b : β} :
    outcome (m >>= f) s = (.ok b, u) ↔
      ∃ a t, outcome m s = (.ok a, t) ∧ outcome (f a) t = (.ok b, u) := by
  rw [outcome_bind]
  rcases outcome m s with ⟨e | a, t⟩
  · simp
  · constructor
    · intro h
      exact ⟨a, t, rfl, h⟩
    · rintro ⟨_, _, h, hf⟩
      cases h
      exact hf

theorem outcome_bind_eq_error {m : ExceptT ε (StateM σ) α} {f : α → ExceptT ε (StateM σ) β}
    {s u : σ} {e : ε} :
    outcome (m >>= f) s = (.error e, u) ↔
      outcome m s = (.error e, u) ∨
        ∃ a t, outcome m s = (.ok a, t) ∧ outcome (f a) t = (.error e, u) := by
  rw [outcome_bind]
  rcases outcome m s with ⟨e' | a, t⟩
  · simp
  · constructor
    · intro h
      exact Or.inr ⟨a, t, rfl, h⟩
    · rintro (h | ⟨_, _, h, hf⟩)
      · cases h
      · cases h
        exact hf

theorem outcome_map (f : α → β) (m : ExceptT ε (StateM σ) α) (s : σ) :
    outcome (f <$> m) s = ((outcome m s).1.map f, (outcome m s).2) := by
  rw [← bind_pure_comp, outcome_bind]
  rcases outcome m s with ⟨e | a, t⟩ <;> rfl

/-- Steps that are the same for the items of a list give the same for all of it. -/
theorem mapM_congr {f g : α → ExceptT ε (StateM σ) β} {xs : List α} (h : ∀ a ∈ xs, f a = g a) :
    xs.mapM f = xs.mapM g := by
  induction xs with
  | nil => rfl
  | cons x xs ih =>
    obtain ⟨hx, hxs⟩ := List.forall_mem_cons.mp h
    rw [List.mapM_cons, List.mapM_cons, hx, ih hxs]

/-- Each item of a list that is mapped gives its part of the result, from some state. -/
theorem outcome_mapM_ok {f : α → ExceptT ε (StateM σ) β} {xs : List α} {ys : List β} {s t : σ}
    (h : outcome (xs.mapM f) s = (.ok ys, t)) :
    List.Forall₂ (fun x y => ∃ s t, outcome (f x) s = (.ok y, t)) xs ys := by
  induction xs generalizing ys s with
  | nil =>
    cases h
    exact .nil
  | cons x xs ih =>
    rw [List.mapM_cons] at h
    obtain ⟨y, u, hx, h⟩ := outcome_bind_eq_ok.mp h
    obtain ⟨ys', v, hxs, h⟩ := outcome_bind_eq_ok.mp h
    cases h
    exact .cons ⟨s, u, hx⟩ (ih hxs)

/-- An item of a list that is mapped has its turn after the items before it. -/
theorem outcome_mapM_turn {f : α → ExceptT ε (StateM σ) β} {xs : List α} {ys : List β} {s t : σ}
    (h : outcome (xs.mapM f) s = (.ok ys, t)) {i : Nat} {x : α} (hx : xs[i]? = some x) :
    ∃ first u y v, outcome ((xs.take i).mapM f) s = (.ok first, u) ∧ outcome (f x) u = (.ok y, v) ∧
      ys[i]? = some y := by
  induction xs generalizing ys s i with
  | nil => simp at hx
  | cons x' xs ih =>
    rw [List.mapM_cons] at h
    obtain ⟨y, u, hy, h⟩ := outcome_bind_eq_ok.mp h
    obtain ⟨ys', v, hys, h⟩ := outcome_bind_eq_ok.mp h
    cases h
    cases i with
    | zero =>
      cases hx
      exact ⟨[], s, y, u, rfl, hy, rfl⟩
    | succ i =>
      obtain ⟨first, w, y', v', hfirst, hx, hy'⟩ := ih hys hx
      refine ⟨y :: first, w, y', v', ?_, hx, hy'⟩
      rw [List.take_succ_cons, List.mapM_cons]
      exact outcome_bind_eq_ok.mpr ⟨y, u, hy, outcome_bind_eq_ok.mpr ⟨first, w, hfirst, rfl⟩⟩

theorem outcome_mapM_of_map {γ : Type} {f : α → ExceptT ε (StateM σ) β} {g : α → β → γ} {xs : List α} {zs : List γ}
    {s t : σ} (h : outcome (xs.mapM fun x => f x >>= fun y => pure (g x y)) s = (.ok zs, t)) :
    ∃ ys, outcome (xs.mapM f) s = (.ok ys, t) := by
  induction xs generalizing zs s with
  | nil =>
    cases h
    exact ⟨[], rfl⟩
  | cons x xs ih =>
    rw [List.mapM_cons] at h
    obtain ⟨z, u, hz, h⟩ := outcome_bind_eq_ok.mp h
    obtain ⟨zs', v, hzs, h⟩ := outcome_bind_eq_ok.mp h
    cases h
    obtain ⟨y, w, hy, hz⟩ := outcome_bind_eq_ok.mp hz
    cases hz
    obtain ⟨ys, hys⟩ := ih hzs
    refine ⟨y :: ys, ?_⟩
    rw [List.mapM_cons]
    exact outcome_bind_eq_ok.mpr ⟨y, _, hy, outcome_bind_eq_ok.mpr ⟨ys, _, hys, rfl⟩⟩

def Yields (m : ExceptT ε (StateM σ) α) (P : α → Prop) : Prop :=
  ∀ s a t, outcome m s = (.ok a, t) → P a

namespace Yields

theorem pure {a : α} {P : α → Prop} (h : P a) : Yields (pure a : ExceptT ε (StateM σ) α) P := by
  intro s b t hb
  cases hb
  exact h

theorem bind {m : ExceptT ε (StateM σ) α} {f : α → ExceptT ε (StateM σ) β} {Q : α → Prop}
    {P : β → Prop} (hm : Yields m Q) (hf : ∀ a, Q a → Yields (f a) P) : Yields (m >>= f) P := by
  intro s b t hb
  obtain ⟨a, u, ha, hb⟩ := outcome_bind_eq_ok.mp hb
  exact hf a (hm s a u ha) u b t hb

theorem after {m : ExceptT ε (StateM σ) α} {f : α → ExceptT ε (StateM σ) β} {P : β → Prop}
    (hf : ∀ a, Yields (f a) P) : Yields (m >>= f) P :=
  bind (Q := fun _ => True) (fun _ _ _ _ => trivial) fun a _ => hf a

theorem mapM {f : α → ExceptT ε (StateM σ) β} {xs : List α} {P : β → Prop}
    (hf : ∀ x ∈ xs, Yields (f x) P) : Yields (xs.mapM f) fun ys => ∀ y ∈ ys, P y := by
  intro s ys t h
  have hr := outcome_mapM_ok h
  clear h
  induction hr with
  | nil => simp
  | cons hxy hr ih =>
    obtain ⟨hx, hxs⟩ := List.forall_mem_cons.mp hf
    obtain ⟨s, t, ho⟩ := hxy
    exact List.forall_mem_cons.mpr ⟨hx s _ t ho, ih hxs⟩

end Yields

end

section

namespace ExpandError

variable {α : Type} {r : Except ExpandError α}

@[simp] theorem caught_ok (a : α) : caught (.ok a) = .ok (.ok a) := rfl

theorem caught_error {e : ExpandError} (h : e.isAborted = false) :
    caught (.error e : Except ExpandError α) = .ok (.error e) := by
  simp only [caught, h, Bool.false_eq_true, if_false]

theorem caught_aborted {e : ExpandError} (h : e.isAborted = true) :
    caught (.error e : Except ExpandError α) = .error e := by
  simp only [caught, h, if_true]

theorem caught_eq_ok {x : Except ExpandError α} (h : caught r = .ok x) : x = r := by
  cases r with
  | ok a => exact (Except.ok.inj h).symm
  | error e =>
    cases he : e.isAborted with
    | true =>
      rw [caught_aborted he] at h
      cases h
    | false =>
      rw [caught_error he] at h
      exact (Except.ok.inj h).symm

theorem caught_eq_error {e : ExpandError} (h : caught r = .error e) : r = .error e ∧ e.isAborted = true := by
  cases r with
  | ok a => cases h
  | error e' =>
    cases he : e'.isAborted with
    | true =>
      rw [caught_aborted he] at h
      cases h
      exact ⟨rfl, he⟩
    | false =>
      rw [caught_error he] at h
      cases h

end ExpandError

@[simp] theorem Host.outcome_lift {σ α : Type} (r : Except ExprError α) (s : σ) :
    outcome (Host.lift r) s = (r, s) := rfl

namespace ScopeM

variable {α : Type} {P : α → Prop} {m : ScopeM α}

@[simp] theorem outcome_withLoop (name : String) (i : Nat) (m : ScopeM α) (s : Scope) :
    outcome (withLoop name i m) s =
      ((outcome m { s with loops := (name, (i : Int)) :: s.loops }).1,
        { (outcome m { s with loops := (name, (i : Int)) :: s.loops }).2 with
          loops := (outcome m { s with loops := (name, (i : Int)) :: s.loops }).2.loops.tail }) := rfl

@[simp] theorem outcome_outsideLoops (m : ScopeM α) (s : Scope) :
    outcome (outsideLoops m) s =
      ((outcome m { s with loops := [] }).1,
        { (outcome m { s with loops := [] }).2 with loops := s.loops }) := rfl

@[simp] theorem outcome_atPlace (pointer : String) (m : EvalM Scope α) (s : Scope) :
    outcome (atPlace pointer m) s =
      ((outcome m { s with pointer }).1.mapError (.expression pointer),
        { (outcome m { s with pointer }).2 with pointer := s.pointer }) := rfl

@[simp] theorem outcome_attempt (m : ScopeM α) (s : Scope) :
    outcome (attempt m) s = (ExpandError.caught (outcome m s).1, (outcome m s).2) := rfl

@[simp] theorem outcome_toEval (m : ScopeM α) (s : Scope) :
    outcome m.toEval s = ((outcome m s).1.mapError ExpandError.toExprError, (outcome m s).2) := rfl

theorem yields_lift {r : Except ExpandError α} (h : ∀ a, r = .ok a → P a) :
    Yields (lift r) P := by
  intro s a t ha
  cases ha
  exact h a rfl

theorem yields_withLoop (h : Yields m P) (name : String) (i : Nat) :
    Yields (withLoop name i m) P := by
  intro s a t ha
  rw [outcome_withLoop, Prod.mk.injEq] at ha
  exact h _ a _ (Prod.ext ha.1 rfl)

@[simp] theorem outcome_lift (r : Except ExpandError α) (s : Scope) : outcome (lift r) s = (r, s) := rfl

end ScopeM
end

theorem Catalog.lookup?_congr {σ : Type} {f g : String} (h : Name.same f g = true) : lookup? σ f = lookup? σ g := by
  unfold lookup?
  rw [Name.same_iff.mp h]

namespace Expr

variable {σ : Type} {h : Host σ} {scopes : Scopes} {e : Expr} {es : List Expr} {v : Json} {vs : List Json} {s t u : σ}

theorem outcome_values_nil : outcome (Meaning.values scopes (meanings h [])) s = (.ok [], s) := rfl

theorem outcome_values_cons (he : outcome (eval h scopes e) s = (.ok v, t))
    (hes : outcome (Meaning.values scopes (meanings h es)) t = (.ok vs, u)) :
    outcome (Meaning.values scopes (meanings h (e :: es))) s = (.ok (v :: vs), u) := by
  unfold Meaning.values at hes ⊢
  unfold eval at he
  rw [meanings, List.mapM_cons, outcome_bind, he]
  change outcome ((meanings h es).mapM (fun m => m.value scopes) >>= fun vs => pure (v :: vs)) t = _
  rw [outcome_bind, hes]
  rfl

theorem outcome_values_singleton (he : outcome (eval h scopes e) s = (.ok v, t)) :
    outcome (Meaning.values scopes (meanings h [e])) s = (.ok [v], t) :=
  outcome_values_cons he outcome_values_nil

variable {name : String} {span : Span}

theorem outcome_call_value {f : Catalog.Pure} (hl : Catalog.lookup? σ name = some (.value f))
    (hes : outcome (Meaning.values scopes (meanings h es)) s = (.ok vs, t)) :
    outcome (eval h scopes (.call none name es span)) s = (f ⟨name, vs⟩, t) := by
  change outcome (Meaning.call h none name (meanings h es) span scopes) s = _
  unfold Meaning.call
  rw [hl]
  change outcome (Meaning.values scopes (meanings h es) >>= fun vs => Host.lift (f ⟨name, vs⟩)) s = _
  rw [outcome_bind, hes]
  rfl

theorem outcome_call_asking {f : Catalog.Asking σ} (hl : Catalog.lookup? σ name = some (.asking f))
    (hes : outcome (Meaning.values scopes (meanings h es)) s = (.ok vs, t)) :
    outcome (eval h scopes (.call none name es span)) s = outcome (f h ⟨name, vs⟩) t := by
  change outcome (Meaning.call h none name (meanings h es) span scopes) s = _
  unfold Meaning.call
  rw [hl]
  change outcome (Meaning.values scopes (meanings h es) >>= fun vs => f h ⟨name, vs⟩) s = _
  rw [outcome_bind, hes]

end Expr
end ResourceTemplate
