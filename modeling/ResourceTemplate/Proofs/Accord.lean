import ResourceTemplate.Proofs.Discipline

namespace ResourceTemplate

/-- A relation between steps that sequences have if their parts have it. A step that does nothing agrees
with itself. -/
structure Accord (ε σ : Type) where
  Agree {α : Type} : ExceptT ε (StateM σ) α → ExceptT ε (StateM σ) α → Prop
  agree_pure {α : Type} (a : α) : Agree (pure a) (pure a)
  agree_bind {α β : Type} {m n : ExceptT ε (StateM σ) α} {f g : α → ExceptT ε (StateM σ) β} :
    Agree m n → (∀ a, Agree (f a) (g a)) → Agree (m >>= f) (n >>= g)

namespace Accord.Agree

variable {ε σ α β : Type} {A : Accord ε σ}

theorem pure (a : α) : A.Agree (pure a) (pure a) := A.agree_pure a

theorem bind {m n : ExceptT ε (StateM σ) α} {f g : α → ExceptT ε (StateM σ) β} (hm : A.Agree m n)
    (hf : ∀ a, A.Agree (f a) (g a)) : A.Agree (m >>= f) (n >>= g) :=
  A.agree_bind hm hf

theorem ite {c : Prop} [Decidable c] {m n m' n' : ExceptT ε (StateM σ) α} (hm : A.Agree m n)
    (hm' : A.Agree m' n') : A.Agree (if c then m else m') (if c then n else n') := by
  split
  · exact hm
  · exact hm'

theorem mapM {f g : α → ExceptT ε (StateM σ) β} (hf : ∀ a, A.Agree (f a) (g a)) (xs : List α) :
    A.Agree (xs.mapM f) (xs.mapM g) := by
  induction xs with
  | nil => exact .pure _
  | cons x xs ih =>
    rw [List.mapM_cons, List.mapM_cons]
    exact (hf x).bind fun y => ih.bind fun ys => .pure _

theorem foldlM {f g : β → α → ExceptT ε (StateM σ) β} (hf : ∀ b a, A.Agree (f b a) (g b a))
    (xs : List α) (b : β) : A.Agree (xs.foldlM f b) (xs.foldlM g b) := by
  induction xs generalizing b with
  | nil => exact .pure _
  | cons x xs ih =>
    rw [List.foldlM_cons, List.foldlM_cons]
    exact (hf b x).bind ih

theorem forM {f g : α → ExceptT ε (StateM σ) PUnit} (hf : ∀ a, A.Agree (f a) (g a))
    (xs : List α) : A.Agree (xs.forM f) (xs.forM g) := by
  induction xs with
  | nil => exact .pure _
  | cons x xs ih => exact (hf x).bind fun _ => ih

theorem filterM {f g : α → ExceptT ε (StateM σ) Bool} (hf : ∀ a, A.Agree (f a) (g a))
    (xs : List α) : A.Agree (xs.filterM f) (xs.filterM g) := by
  -- the filter keeps what it took so far in an argument
  have hx : ∀ acc, A.Agree (List.filterAuxM f xs acc) (List.filterAuxM g xs acc) := by
    induction xs with
    | nil => exact fun acc => .pure _
    | cons x xs ih => exact fun acc => (hf x).bind fun b => ih _
  exact (hx []).bind fun ys => .pure _

end Accord.Agree

def Discipline.alone {ε σ : Type} (S : Discipline ε σ) : Accord ε σ where
  Agree m n := m = n ∧ S.Obeys m
  agree_pure a := ⟨rfl, S.obeys_pure a⟩
  agree_bind := by
    rintro α β m n f g ⟨rfl, hm⟩ hf
    have hfg : f = g := funext fun a => (hf a).1
    exact ⟨by rw [hfg], S.obeys_bind hm fun a => (hf a).2⟩

def Accord.same (ε σ : Type) : Accord ε σ where
  Agree m n := m = n
  agree_pure _ := rfl
  agree_bind := by
    rintro α β m n f g rfl hf
    rw [funext hf]

def Accord.between {ε σ : Type} (R : σ → σ → Prop) : Accord ε σ where
  Agree m n := ∀ s t, R s t → (outcome n t).1 = (outcome m s).1 ∧ R (outcome m s).2 (outcome n t).2
  agree_pure a s t h := ⟨rfl, h⟩
  agree_bind {α β m n f g} hm hf s t h := by
    obtain ⟨he, hr⟩ := hm s t h
    rw [outcome_bind, outcome_bind]
    generalize outcome m s = o at he hr
    generalize outcome n t = o' at he hr
    obtain ⟨r, u⟩ := o
    obtain ⟨r', v⟩ := o'
    obtain rfl : r' = r := he
    cases r' with
    | error e => exact ⟨rfl, hr⟩
    | ok a => exact hf a u v hr

/-- The accord of steps of which one gives whatever the other gives, from related states, and leaves related ones. A
step that fails is followed by any. -/
def Accord.following {ε σ : Type} (R : σ → σ → Prop) : Accord ε σ where
  Agree m n := ∀ s t, R s t → ∀ a u, outcome m s = (.ok a, u) → ∃ v, outcome n t = (.ok a, v) ∧ R u v
  agree_pure a s t h b u hb := by
    obtain ⟨hr, rfl⟩ := Prod.mk.inj hb
    exact ⟨t, Prod.ext hr rfl, h⟩
  agree_bind {α β m n f g} hm hf s t h b u hb := by
    obtain ⟨a, s', ha, hb⟩ := outcome_bind_eq_ok.mp hb
    obtain ⟨t', ha', h'⟩ := hm s t h a s' ha
    obtain ⟨v, hb', hv⟩ := hf a s' t' h' b u hb
    exact ⟨v, outcome_bind_eq_ok.mpr ⟨a, t', ha', hb'⟩, hv⟩

/-- An accord of evaluations to which every result that fails definitely, if it does, belongs. -/
structure Accord.Evaluates {σ : Type} (A : Accord ExprError σ) : Prop where
  lift {α : Type} {r : Except ExprError α} : Definite r → A.Agree (Host.lift r) (Host.lift r)

section
variable {σ α : Type} {A : Accord ExprError σ}

theorem Accord.Evaluates.throw (hA : A.Evaluates) {e : ExprError} (h : e.isDefinite = true) :
    A.Agree (throw e : EvalM σ α) (throw e) :=
  hA.lift (Fails.error.mpr h)

theorem Accord.same_evaluates : (Accord.same ExprError σ).Evaluates where
  lift _ := rfl

section
variable {R : σ → σ → Prop}

theorem Accord.following_evaluates (R : σ → σ → Prop) : (Accord.following R).Evaluates where
  lift _ s t h a u ha := by
    obtain ⟨hr, rfl⟩ := Prod.mk.inj ha
    exact ⟨t, Prod.ext hr rfl, h⟩

theorem Accord.following_throw (e : ExprError) (m : EvalM σ α) : (Accord.following R).Agree (throw e) m := by
  intro s t h a u ha
  cases ha

theorem Accord.following_ask {f : σ → Except ExprError α} (hf : ∀ s t, R s t → f t = f s) :
    (Accord.following R).Agree (Host.ask f) (Host.ask f) := by
  intro s t h a u ha
  obtain ⟨hr, rfl⟩ := Prod.mk.inj ha
  exact ⟨t, Prod.ext ((hf s t h).trans hr) rfl, h⟩

theorem Accord.following_read {f : σ → α} (hf : ∀ s t, R s t → f t = f s) :
    (Accord.following R).Agree (Host.read f) (Host.read f) :=
  following_ask fun s t h => congrArg Except.ok (hf s t h)

theorem Accord.following_act {f g : σ → α × σ} (hf : ∀ s t, R s t → (g t).1 = (f s).1 ∧ R (f s).2 (g t).2) :
    (Accord.following R).Agree (Host.act f) (Host.act g) := by
  intro s t h a u ha
  obtain ⟨hr, rfl⟩ := Prod.mk.inj ha
  obtain ⟨hsame, hkeeps⟩ := hf s t h
  exact ⟨(g t).2, Prod.ext ((congrArg Except.ok hsame).trans hr) rfl, hkeeps⟩

theorem Accord.following_modify {f : σ → σ} (hf : ∀ s t, R s t → R (f s) (f t)) :
    (Accord.following R).Agree (modify f : EvalM σ PUnit) (modify f) := by
  intro s t h a u ha
  cases ha
  exact ⟨f t, rfl, hf s t h⟩

theorem Accord.following_remark {h k : Host σ} {text other : String}
    (hw : ∀ s t, R s t → R (h.warn text s) (k.warn other t)) :
    (Accord.following R).Agree (h.remark text) (k.remark other) := by
  have hact := following_act (f := fun s => ((), h.warn text s)) (g := fun s => ((), k.warn other s))
    fun s t hs => ⟨rfl, hw s t hs⟩
  exact hact

end

section
variable {R : σ → σ → Prop}

theorem Accord.between_evaluates (R : σ → σ → Prop) : (Accord.between R).Evaluates where
  lift _ _ _ h := ⟨rfl, h⟩

theorem Accord.between_throw (e : ExprError) : (Accord.between R).Agree (throw e : EvalM σ α) (throw e) :=
  fun _ _ h => ⟨rfl, h⟩

theorem Accord.between_ask {f : σ → Except ExprError α} (hf : ∀ s t, R s t → f t = f s) :
    (Accord.between R).Agree (Host.ask f) (Host.ask f) := fun s t h => ⟨hf s t h, h⟩

theorem Accord.between_act {f g : σ → α × σ} (hf : ∀ s t, R s t → (g t).1 = (f s).1 ∧ R (f s).2 (g t).2) :
    (Accord.between R).Agree (Host.act f) (Host.act g) := fun s t h =>
  ⟨congrArg Except.ok (hf s t h).1, (hf s t h).2⟩

theorem Accord.between_modify {f : σ → σ} (hf : ∀ s t, R s t → R (f s) (f t)) :
    (Accord.between R).Agree (modify f : EvalM σ PUnit) (modify f) := fun s t h => ⟨rfl, hf s t h⟩

end

theorem Discipline.Evaluates.alone {S : Discipline ExprError σ} (hS : S.Evaluates) :
    S.alone.Evaluates where
  lift h := ⟨rfl, hS.lift h⟩

end
end ResourceTemplate
