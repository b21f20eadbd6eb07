import ResourceTemplate.Expr.Host
import ResourceTemplate.Failure
import ResourceTemplate.Proofs.Outcome

namespace ResourceTemplate

section

/-- A property of steps that a sequence has if its parts have it. A step that does nothing or only looks
at the state has it. -/
structure Discipline (ε σ : Type) where
  Obeys {α : Type} : ExceptT ε (StateM σ) α → Prop
  obeys_pure {α : Type} (a : α) : Obeys (pure a : ExceptT ε (StateM σ) α)
  obeys_bind {α β : Type} {m : ExceptT ε (StateM σ) α} {f : α → ExceptT ε (StateM σ) β} :
    Obeys m → (∀ a, Obeys (f a)) → Obeys (m >>= f)
  obeys_get : Obeys (get : ExceptT ε (StateM σ) σ)

namespace Discipline.Obeys

variable {ε σ α β : Type} {S : Discipline ε σ}

theorem pure (a : α) : S.Obeys (pure a : ExceptT ε (StateM σ) α) := S.obeys_pure a

theorem get : S.Obeys (get : ExceptT ε (StateM σ) σ) := S.obeys_get

theorem bind {m : ExceptT ε (StateM σ) α} {f : α → ExceptT ε (StateM σ) β} (hm : S.Obeys m)
    (hf : ∀ a, S.Obeys (f a)) : S.Obeys (m >>= f) :=
  S.obeys_bind hm hf

theorem ite {c : Prop} [Decidable c] {m n : ExceptT ε (StateM σ) α} (hm : S.Obeys m)
    (hn : S.Obeys n) : S.Obeys (if c then m else n) := by
  split
  · exact hm
  · exact hn

theorem mapM {f : α → ExceptT ε (StateM σ) β} (hf : ∀ a, S.Obeys (f a)) (xs : List α) :
    S.Obeys (xs.mapM f) := by
  induction xs with
  | nil => exact .pure _
  | cons x xs ih =>
    rw [List.mapM_cons]
    exact (hf x).bind fun y => ih.bind fun ys => .pure _

theorem foldlM {f : β → α → ExceptT ε (StateM σ) β} (hf : ∀ b a, S.Obeys (f b a)) (xs : List α)
    (b : β) : S.Obeys (xs.foldlM f b) := by
  induction xs generalizing b with
  | nil => exact .pure _
  | cons x xs ih =>
    rw [List.foldlM_cons]
    exact (hf b x).bind ih

theorem forM {f : α → ExceptT ε (StateM σ) PUnit} (hf : ∀ a, S.Obeys (f a)) (xs : List α) :
    S.Obeys (xs.forM f) := by
  induction xs with
  | nil => exact .pure _
  | cons x xs ih => exact (hf x).bind fun _ => ih

theorem filterM {f : α → ExceptT ε (StateM σ) Bool} (hf : ∀ a, S.Obeys (f a)) (xs : List α) :
    S.Obeys (xs.filterM f) := by
  -- the filter keeps what it took so far in an argument
  have hx : ∀ acc, S.Obeys (List.filterAuxM f xs acc) := by
    induction xs with
    | nil => exact fun acc => .pure _
    | cons x xs ih => exact fun acc => (hf x).bind fun b => ih _
  exact (hx []).bind fun ys => .pure _

end Discipline.Obeys

/-- What steps may do to the state, as a relation that holds of a step that does nothing and of a
sequence of steps. -/
structure Frame {σ : Type} (R : σ → σ → Prop) : Prop where
  refl : ∀ s, R s s
  trans : ∀ s t u, R s t → R t u → R s u

/-- The discipline of steps that change the state as a relation allows, whether they fail or not. -/
def changing {ε σ : Type} {R : σ → σ → Prop} (hR : Frame R) : Discipline ε σ where
  Obeys m := ∀ s, R s (outcome m s).2
  obeys_pure _ s := hR.refl s
  obeys_bind {_ _ m f} hm hf s := by
    have hs := hm s
    rw [outcome_bind]
    rcases ho : outcome m s with ⟨e | a, t⟩
    · rw [ho] at hs
      exact hs
    · rw [ho] at hs
      exact hR.trans s t _ hs (hf a t)
  obeys_get s := hR.refl s

/-- Each step of a mapped list starts from a state that those before it lead to. -/
theorem outcome_mapM_at {ε σ α β : Type} {R : σ → σ → Prop} (hR : Frame R)
    {f : α → ExceptT ε (StateM σ) β} (hf : ∀ a, (changing hR : Discipline ε σ).Obeys (f a))
    {xs : List α} {ys : List β} {s t : σ} (h : outcome (xs.mapM f) s = (.ok ys, t)) {i : Nat} {y : β}
    (hy : ys[i]? = some y) : ∃ a u v, xs[i]? = some a ∧ R s u ∧ outcome (f a) u = (.ok y, v) := by
  induction xs generalizing ys s i with
  | nil =>
    cases h
    cases hy
  | cons a xs ih =>
    rw [List.mapM_cons] at h
    obtain ⟨b, u, hb, h⟩ := outcome_bind_eq_ok.mp h
    obtain ⟨bs, v, hbs, h⟩ := outcome_bind_eq_ok.mp h
    cases h
    cases i with
    | zero =>
      cases hy
      exact ⟨a, s, u, rfl, hR.refl s, hb⟩
    | succ i =>
      obtain ⟨a', u', v', ha, hu, hy⟩ := ih hbs hy
      have hs := hf a s
      rw [hb] at hs
      exact ⟨a', u', v', ha, hR.trans _ _ _ hs hu, hy⟩

end

def Fails {ε α : Type} (E : ε → Prop) (r : Except ε α) : Prop := ∀ e, r = .error e → E e

namespace Fails

variable {ε α β : Type} {E : ε → Prop}

@[simp] theorem ok (a : α) : Fails E (.ok a) := by
  intro e h
  cases h

@[simp] theorem pure (a : α) : Fails E (Pure.pure a) := ok a

@[simp] theorem error {e : ε} : Fails E (.error e : Except ε α) ↔ E e := by
  simp [Fails]

@[simp] theorem throw {e : ε} : Fails E (MonadExcept.throw e : Except ε α) ↔ E e := error

theorem bind {r : Except ε α} {f : α → Except ε β} (h : Fails E r) (hf : ∀ a, Fails E (f a)) :
    Fails E (r >>= f) := by
  intro e he
  cases r with
  | error e' =>
    cases he
    exact h e rfl
  | ok a => exact hf a e he

theorem map {r : Except ε α} (h : Fails E r) (f : α → β) : Fails E (r.map f) := by
  intro e he
  cases r with
  | error e' =>
    cases he
    exact h e rfl
  | ok a => cases he

theorem mapError {ε' : Type} {E' : ε' → Prop} {r : Except ε α} {f : ε → ε'} (h : Fails E r)
    (hf : ∀ e, E e → E' (f e)) : Fails E' (r.mapError f) := by
  intro e he
  cases r with
  | error e' =>
    cases he
    exact hf e' (h e' rfl)
  | ok a => cases he

theorem ite {c : Prop} [Decidable c] {r s : Except ε α} (hr : Fails E r) (hs : Fails E s) :
    Fails E (if c then r else s) := by
  split
  · exact hr
  · exact hs

theorem mapM {f : α → Except ε β} (hf : ∀ a, Fails E (f a)) (xs : List α) :
    Fails E (xs.mapM f) := by
  induction xs with
  | nil => exact .pure _
  | cons x xs ih =>
    rw [List.mapM_cons]
    exact (hf x).bind fun y => ih.bind fun ys => .pure _

theorem foldlM {f : β → α → Except ε β} (hf : ∀ b a, Fails E (f b a)) (xs : List α) (b : β) :
    Fails E (xs.foldlM f b) := by
  induction xs generalizing b with
  | nil => exact .pure _
  | cons x xs ih =>
    rw [List.foldlM_cons]
    exact (hf b x).bind ih

end Fails

/-- Whether a failure stays one once another resource is bound or more depth is left. Evaluation is broken off for the
round-trip format alone. -/
@[simp] def ExprError.isDefinite : ExprError → Bool
  | .unresolvedSymbol _ => false
  | .callDepthExceeded => false
  | .aborted pattern => Instant.isRoundTrip pattern
  | _ => true

def ExpandError.isDefinite : ExpandError → Bool
  | .expression _ source => source.isDefinite
  | _ => true

abbrev Definite {α : Type} (r : Except ExprError α) : Prop := Fails (fun e => e.isDefinite = true) r

attribute [simp] ExprError.mismatch

def failing {ε σ : Type} (E : ε → Prop) : Discipline ε σ where
  Obeys m := ∀ s e t, outcome m s = (.error e, t) → E e
  obeys_pure a s e t h := by cases h
  obeys_bind hm hf s e t h := by
    rcases outcome_bind_eq_error.mp h with h | ⟨a, u, -, h⟩
    · exact hm s e t h
    · exact hf a u e t h
  obeys_get s e t h := by cases h

abbrev FailsWith {ε σ α : Type} (E : ε → Prop) (m : ExceptT ε (StateM σ) α) : Prop :=
  (failing E).Obeys m

namespace FailsWith

variable {ε σ α β : Type} {E : ε → Prop}

theorem throw {e : ε} (h : E e) : FailsWith E (throw e : ExceptT ε (StateM σ) α) := by
  intro s e' t he
  cases he
  exact h

theorem of_ok {m : ExceptT ε (StateM σ) α} (h : ∀ s, ∃ a t, outcome m s = (.ok a, t)) :
    FailsWith E m := by
  intro s e t he
  obtain ⟨a, u, ha⟩ := h s
  rw [ha] at he
  cases he

theorem modify (f : σ → σ) : FailsWith E (modify f : ExceptT ε (StateM σ) PUnit) :=
  of_ok fun s => ⟨⟨⟩, f s, rfl⟩

end FailsWith

def Admits (E : ExprError → Prop) : Prop := ∀ e, e.isDefinite = true → E e

/-- A discipline of evaluations that those obey which leave the state alone and fail definitely, if they
do. -/
structure Discipline.Evaluates {σ : Type} (S : Discipline ExprError σ) : Prop where
  lift {α : Type} {r : Except ExprError α} : Definite r → S.Obeys (Host.lift r)

section
variable {σ α : Type} {S : Discipline ExprError σ} {E : ExprError → Prop}

theorem Discipline.Evaluates.throw (hS : S.Evaluates) {e : ExprError} (h : e.isDefinite = true) :
    S.Obeys (throw e : EvalM σ α) :=
  hS.lift (Fails.error.mpr h)

theorem Discipline.Evaluates.ask (hS : S.Evaluates) {f : σ → Except ExprError α}
    (h : ∀ s, Definite (f s)) : S.Obeys (Host.ask f) :=
  S.obeys_bind S.obeys_get fun s => hS.lift (h s)

theorem Discipline.Obeys.read (f : σ → α) : S.Obeys (Host.read f) :=
  S.obeys_bind S.obeys_get fun s => S.obeys_pure (f s)

theorem Admits.evaluates (hE : Admits E) : (failing E : Discipline ExprError σ).Evaluates where
  lift h s e t he := by
    cases he
    exact hE e (h e rfl)

theorem Frame.evaluates {R : σ → σ → Prop} (hR : Frame R) :
    (changing hR : Discipline ExprError σ).Evaluates where
  lift _ s := hR.refl s

end
end ResourceTemplate
