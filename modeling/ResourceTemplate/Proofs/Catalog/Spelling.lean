import ResourceTemplate.Proofs.Catalog.Surroundings

namespace ResourceTemplate

def SameValue {ε α : Type} (r r' : Except ε α) : Prop := r.toOption = r'.toOption

namespace SameValue

variable {ε α β : Type} {r r' : Except ε α}

theorem refl (r : Except ε α) : SameValue r r := rfl

theorem error (e e' : ε) : SameValue (.error e : Except ε α) (.error e') := rfl

theorem bind {f f' : α → Except ε β} (h : SameValue r r') (hf : ∀ a, SameValue (f a) (f' a)) :
    SameValue (r >>= f) (r' >>= f') := by
  cases r with
  | error e =>
    cases r' with
    | error e' => rfl
    | ok a => cases h
  | ok a =>
    obtain rfl := toOption_eq_some.mp h.symm
    exact hf a

theorem after (h : SameValue r r') (f : α → Except ε β) : SameValue (r >>= f) (r' >>= f) := h.bind fun _ => refl _

theorem ite {c : Prop} [Decidable c] {q q' : Except ε α} (h : SameValue r r') (hq : SameValue q q') :
    SameValue (if c then r else q) (if c then r' else q') := by
  split
  · exact h
  · exact hq

theorem mapM {f f' : α → Except ε β} (hf : ∀ a, SameValue (f a) (f' a)) (xs : List α) :
    SameValue (xs.mapM f) (xs.mapM f') := by
  induction xs with
  | nil => rfl
  | cons x xs ih =>
    rw [List.mapM_cons, List.mapM_cons]
    exact (hf x).bind fun y => ih.after _

theorem eq_ok (h : SameValue r r') {a : α} (hr : r = .ok a) : r' = .ok a := by
  subst hr
  exact toOption_eq_some.mp h.symm

end SameValue

def Nameless {α : Type} (F : Args → Except ExprError α) : Prop := ∀ f g vs, SameValue (F ⟨f, vs⟩) (F ⟨g, vs⟩)

namespace Nameless

variable {α β : Type} {F : Args → Except ExprError α} {G : α → Args → Except ExprError β}

theorem bind (hF : Nameless F) (hG : ∀ x, Nameless (G x)) : Nameless fun a => F a >>= fun x => G x a :=
  fun f g vs => (hF f g vs).bind fun x => hG x f g vs

theorem after (hF : Nameless F) (k : α → Except ExprError β) : Nameless fun a => F a >>= k :=
  fun f g vs => (hF f g vs).after k

end Nameless

namespace Args

theorem nameless_expect (least : Nat) (most : Option Nat) : Nameless fun a => a.expect least most :=
  fun _ _ _ => .ite (.refl _) (.error _ _)

theorem nameless_exactly (n : Nat) : Nameless fun a => a.exactly n := nameless_expect n (some n)

theorem nameless_value (i : Nat) : Nameless fun a => a.value i := by
  intro f g vs
  unfold value
  dsimp only
  cases vs[i]? <;> rfl

theorem nameless_string (i : Nat) : Nameless fun a => a.string i :=
  (nameless_value i).bind fun v f g vs => by cases v <;> rfl

theorem nameless_int (i : Nat) : Nameless fun a => a.int i :=
  (nameless_value i).bind fun v f g vs => by
    cases v with
    | num n =>
      dsimp only
      cases n.toInt64? <;> rfl
    | _ => rfl

theorem nameless_bool (i : Nat) : Nameless fun a => a.bool i :=
  (nameless_value i).bind fun v f g vs => by cases v <;> rfl

theorem nameless_array (i : Nat) : Nameless fun a => a.array i :=
  (nameless_value i).bind fun v f g vs => by cases v <;> rfl

theorem nameless_object (i : Nat) : Nameless fun a => a.object i :=
  (nameless_value i).bind fun v f g vs => by cases v <;> rfl

theorem nameless_strings : Nameless strings := fun f g vs => .mapM (fun i => nameless_string i f g vs) _

theorem nameless_single {α β : Type} {F : Args → Except ExprError α} (hF : Nameless F) (k : α → Except ExprError β) :
    Nameless fun a => a.exactly 1 >>= fun _ => F a >>= k :=
  (nameless_exactly 1).bind fun _ => hF.after k

end Args

namespace Catalog

open Args

namespace Logic

theorem nameless_functions : ∀ f ∈ functions, Nameless f.2 := by
  have hconstant (v : Json) : Nameless (constant v) := (nameless_exactly 0).after _
  have horder : Nameless order :=
    (nameless_exactly 2).bind fun _ => (nameless_value 0).bind fun v => (nameless_value 1).bind fun w f g vs => by
      cases v <;> cases w <;> rfl
  have hordered (holds : Ordering → Bool) : Nameless (ordered holds) := horder.after _
  simp only [functions, List.forall_mem_cons]
  refine ⟨?_, ?_, hconstant _, hconstant _, hconstant _, ?_, hordered _, hordered _, hordered _, hordered _, by simp⟩
  · exact nameless_single (nameless_value 0) _
  · exact nameless_single (nameless_bool 0) _
  · exact (nameless_exactly 2).bind fun _ => (nameless_value 0).bind fun _ => (nameless_value 1).after _

end Logic

namespace Arithmetic

theorem nameless_binary (op : Int → Int → Int) : Nameless (binary op) :=
  (nameless_exactly 2).bind fun _ => (nameless_int 0).bind fun x => (nameless_int 1).bind fun y f g vs => by
    dsimp only
    cases Number.inRange? (op x y) <;> rfl

theorem nameless_dividing (name : String) (op : Int → Int → Int) : Nameless (dividing name op) := by
  intro f g vs
  refine (nameless_exactly 2 f g vs).bind fun _ => (nameless_int 1 f g vs).bind fun y =>
    .ite (.bind (.refl _) fun _ => ?_) ?_
  all_goals
    refine (nameless_int 0 f g vs).bind fun x => (nameless_int 1 f g vs).bind fun y => ?_
    dsimp only
    cases Number.inRange? (Int.tdiv x y) <;> rfl

theorem nameless_numbers : Nameless numbers :=
  (nameless_expect 1 none).bind fun _ f g vs => .mapM (fun v => by
    cases v with
    | num n =>
      dsimp only
      cases n.toInt64? <;> rfl
    | _ => rfl) _

theorem nameless_extreme (name : String) (pick : Int → Int → Int) : Nameless (extreme name pick) :=
  nameless_numbers.after _

theorem nameless_functions : ∀ f ∈ functions, Nameless f.2 := by
  simp only [functions, List.forall_mem_cons]
  refine ⟨nameless_binary _, nameless_binary _, nameless_binary _, nameless_dividing _ _, nameless_dividing _ _, ?_, ?_,
    nameless_extreme _ _, nameless_extreme _ _, ?_, by simp⟩
  · exact nameless_single (nameless_value 0) _
  · exact nameless_single (nameless_value 0) _
  · exact (nameless_exactly 2).bind fun _ => (nameless_int 0).bind fun _ => (nameless_int 1).after _

end Arithmetic

namespace Collections

section

variable (f g : String) (vs : List Json)

theorem sameValue_pairs (acc : Entries Json) (i : Nat) (xs : List Json) :
    SameValue (pairs ⟨f, vs⟩ acc i xs) (pairs ⟨g, vs⟩ acc i xs) := by
  fun_induction pairs ⟨f, vs⟩ acc i xs with
  | case1 acc i k v rest ih => exact ih
  | case2 acc i v w rest hv =>
    rw [pairs]
    · exact .error _ _
    · exact hv
  | case3 acc i xs hstr hany => rw [pairs] <;> first | exact .refl _ | assumption

theorem sameValue_inAllArrays (x : Json) (i : Nat) (xs : List Json) :
    SameValue (inAllArrays ⟨f, vs⟩ x i xs) (inAllArrays ⟨g, vs⟩ x i xs) := by
  induction xs generalizing i with
  | nil => rfl
  | cons v xs ih =>
    cases v with
    | arr ys => exact .ite (ih _) (.refl _)
    | _ => rfl

theorem sameValue_inAllObjects (key : String) (value : Json) (i : Nat) (xs : List Json) :
    SameValue (inAllObjects ⟨f, vs⟩ key value i xs) (inAllObjects ⟨g, vs⟩ key value i xs) := by
  induction xs generalizing i with
  | nil => rfl
  | cons v xs ih =>
    cases v with
    | obj es =>
      unfold inAllObjects
      split
      · exact .ite (ih _) (.refl _)
      · rfl
    | _ => rfl

theorem sameValue_intersectArrays (rest acc xs : List Json) :
    SameValue (intersectArrays ⟨f, vs⟩ rest acc xs) (intersectArrays ⟨g, vs⟩ rest acc xs) := by
  induction xs generalizing acc with
  | nil => rfl
  | cons x xs ih => exact (sameValue_inAllArrays f g vs x 1 rest).bind fun _ => ih _

theorem sameValue_intersectObjects (rest : List Json) (acc : Entries Json) (es : List (String × Json)) :
    SameValue (intersectObjects ⟨f, vs⟩ rest acc es) (intersectObjects ⟨g, vs⟩ rest acc es) := by
  induction es generalizing acc with
  | nil => rfl
  | cons e es ih => exact (sameValue_inAllObjects f g vs e.1 e.2 1 rest).bind fun _ => ih _

theorem sameValue_uniteArrays (acc : List Json) (i : Nat) (xs : List Json) :
    SameValue (uniteArrays ⟨f, vs⟩ acc i xs) (uniteArrays ⟨g, vs⟩ acc i xs) := by
  induction xs generalizing acc i with
  | nil => rfl
  | cons v xs ih =>
    cases v with
    | arr ys => exact ih _ _
    | _ => rfl

theorem sameValue_uniteObjects (acc : Entries Json) (i : Nat) (xs : List Json) :
    SameValue (uniteObjects ⟨f, vs⟩ acc i xs) (uniteObjects ⟨g, vs⟩ acc i xs) := by
  induction xs generalizing acc i with
  | nil => rfl
  | cons v xs ih =>
    cases v with
    | obj es => exact ih _ _
    | _ => rfl

end

theorem nameless_createObject : Nameless createObject := fun f g vs =>
  .ite (.refl _) ((sameValue_pairs f g vs [] 0 vs).after _)

theorem nameless_position (fromEnd : Bool) : Nameless (position fromEnd) :=
  (nameless_exactly 2).bind fun _ => (nameless_value 0).bind fun v f g vs => by
    cases v with
    | str s => exact (nameless_string 1 f g vs).after _
    | arr xs => exact (nameless_value 1 f g vs).after _
    | _ => rfl

theorem nameless_intersection : Nameless intersection :=
  (nameless_expect 2 none).bind fun _ => (nameless_value 0).bind fun v f g vs => by
    cases v with
    | arr xs => exact (sameValue_intersectArrays f g vs vs.tail [] xs).after _
    | obj es => exact (sameValue_intersectObjects f g vs vs.tail [] es).after _
    | _ => rfl

theorem nameless_union : Nameless union :=
  (nameless_expect 2 none).bind fun _ => (nameless_value 0).bind fun v f g vs => by
    cases v with
    | arr xs => exact (sameValue_uniteArrays f g vs [] 0 vs).after _
    | obj es => exact (sameValue_uniteObjects f g vs [] 0 vs).after _
    | _ => rfl

theorem nameless_functions : ∀ f ∈ functions, Nameless f.2 := by
  have hvalue {F : Json → Except ExprError Json} := nameless_single (nameless_value 0) F
  have hamount (i : Nat) : Nameless fun a => amount a i := fun f g vs =>
    (nameless_int i f g vs).after fun n => .ok n.toNat
  have hslice {F : Nat → Json → Except ExprError Json} :
      Nameless fun a => a.exactly 2 >>= fun _ => amount a 1 >>= fun n => a.value 0 >>= F n :=
    (nameless_exactly 2).bind fun _ => (hamount 1).bind fun _ => (nameless_value 0).after _
  simp only [functions, List.forall_mem_cons]
  refine ⟨hvalue, (nameless_expect 1 none).bind fun _ _ _ _ => .refl _,
    (nameless_expect 1 none).bind fun _ _ _ _ => .refl _, ?_, fun _ _ _ => .refl _, nameless_createObject, hvalue,
    hvalue, nameless_single (nameless_array 0) _, nameless_position _, nameless_intersection,
    nameless_single (nameless_object 0) _, nameless_single (nameless_string 0) _, hvalue, nameless_position _, hvalue,
    nameless_single (nameless_object 0) _, hslice, hslice, nameless_union, by simp⟩
  exact (nameless_exactly 2).bind fun _ => (nameless_value 1).bind fun _ => (nameless_value 0).after _

end Collections

namespace Texts

theorem nameless_format : Nameless Format.format :=
  (nameless_expect 1 none).bind fun _ => (nameless_string 0).bind fun _ _ _ _ => .refl _

theorem nameless_padLeft : Nameless padLeft := by
  refine (nameless_expect 2 (some 3)).bind fun _ => (nameless_value 0).bind fun v f g vs => ?_
  dsimp only
  split
  all_goals
    refine .bind (.refl _) fun text => (nameless_int 1 f g vs).bind fun total => .ite (.bind (.refl _) fun _ => ?_) ?_
    all_goals
      refine .bind (.refl _) fun _ => .ite (.refl _) ?_
      exact (nameless_string 2 f g vs).after _

theorem nameless_substring : Nameless substring := by
  refine (nameless_expect 2 (some 3)).bind fun _ => (nameless_string 0).bind fun s =>
    (nameless_int 1).bind fun start f g vs => .ite (.refl _) ?_
  exact (nameless_int 2 f g vs).after _

theorem nameless_functions : ∀ f ∈ functions, Nameless f.2 := by
  have hstring {F : String → Except ExprError Json} := nameless_single (nameless_string 0) F
  have hvalue {F : Json → Except ExprError Json} := nameless_single (nameless_value 0) F
  have hcompareEnd (holds : List Char → List Char → Bool) : Nameless (compareEnd holds) :=
    (nameless_exactly 2).bind fun _ => (nameless_string 0).bind fun _ => (nameless_string 1).after _
  have htexts (F : List String → String) : Nameless (ofTexts F) :=
    (nameless_expect 1 none).bind fun _ => nameless_strings.after _
  simp only [functions, List.forall_mem_cons]
  refine ⟨hstring, hstring, hstring, hvalue, hstring, hcompareEnd _, nameless_format, htexts _, nameless_padLeft, ?_, ?_,
    hcompareEnd _, hvalue, nameless_substring, hstring, hstring, hstring, htexts _, ?_, hstring, hstring, by simp⟩
  · exact (nameless_exactly 3).bind fun _ => (nameless_string 0).bind fun _ => (nameless_string 1).bind fun _ =>
      (nameless_string 2).after _
  · exact (nameless_exactly 2).bind fun _ => (nameless_string 0).bind fun _ => (nameless_value 1).after _
  · refine (nameless_exactly 2).bind fun _ => (nameless_string 0).bind fun base f g vs => ?_
    split
    · rfl
    · exact (nameless_string 1 f g vs).after _

end Texts

end Catalog

section

variable {σ α : Type}

/-- What a step gives from a state, and leaves, it gives and leaves. -/
theorem Accord.following_refl (m : EvalM σ α) : (Accord.following Eq).Agree m m := by
  rintro s _ rfl a u ha
  exact ⟨u, ha, rfl⟩

theorem Accord.following_lift {R : σ → σ → Prop} {r r' : Except ExprError α} (h : SameValue r r') :
    (Accord.following R).Agree (Host.lift r) (Host.lift r') := by
  intro s t hs a u ha
  obtain ⟨hr, rfl⟩ := Prod.mk.inj ha
  exact ⟨t, Prod.ext (h.eq_ok hr) rfl, hs⟩

end

namespace Catalog

open Args

variable {σ : Type}

namespace Surroundings

theorem nameless_list : Nameless list := (nameless_expect 2 (some 3)).bind fun _ => (nameless_string 0).after _

theorem nameless_typePosition (texts : List String) (maxLeading : Nat) :
    Nameless fun a => typePosition a texts maxLeading := by
  intro f g vs
  unfold typePosition
  dsimp only
  cases (texts.take (maxLeading + 1)).findIdx? fun t => t.toList.contains '/' <;> rfl

theorem nameless_pureFunctions : ∀ f ∈ pureFunctions, Nameless f.2 := by
  simp only [pureFunctions, List.forall_mem_cons]
  exact ⟨(nameless_expect 3 none).bind fun _ => nameless_strings.after _,
    (nameless_expect 2 none).bind fun _ => nameless_strings.after _, by simp⟩

theorem nameless_loopAndOffset : Nameless loopAndOffset := by
  refine (nameless_expect 0 (some 2)).bind fun _ f g vs => ?_
  dsimp only
  split
  · rfl
  · rfl
  · exact (nameless_int 0 f g _).after _
  · exact (nameless_string 0 f g _).bind fun _ => (nameless_int 1 f g _).after _

def AsksNameless (F : Asking σ) : Prop :=
  ∀ h f g vs, (Accord.following Eq).Agree (F h ⟨f, vs⟩) (F h ⟨g, vs⟩)

section

variable {α : Type} {F : Args → Except ExprError α}

theorem asksNameless_after (hF : Nameless F) (k : Host σ → α → EvalM σ Json) :
    AsksNameless fun h a => Host.lift (F a) >>= k h :=
  fun _ f g vs => (Accord.following_lift (hF f g vs)).bind fun _ => Accord.following_refl _

theorem asksNameless_bind (hF : Nameless F) {k : α → Asking σ} (hk : ∀ x, AsksNameless (k x)) :
    AsksNameless fun h a => Host.lift (F a) >>= fun x => k x h a :=
  fun h f g vs => (Accord.following_lift (hF f g vs)).bind fun x => hk x h f g vs

end

theorem asksNameless_functions : ∀ f ∈ functions (σ := σ), AsksNameless f.2 := by
  have hreading (f : Host σ → σ → Json) : AsksNameless (reading f) :=
    asksNameless_after (nameless_exactly 0) fun h _ => Host.read (f h)
  have hstring {F : Host σ → String → EvalM σ Json} :
      AsksNameless fun h a => Host.lift (a.exactly 1) >>= fun _ => Host.lift (a.string 0) >>= F h :=
    asksNameless_bind (nameless_exactly 1) fun _ => asksNameless_after (nameless_string 0) F
  simp only [functions, List.forall_mem_cons]
  refine ⟨asksNameless_after nameless_loopAndOffset fun _ _ => _, hreading _, hreading _,
    asksNameless_after (nameless_exactly 0) fun _ _ => _, hstring, ?_, hreading _, ?_, hstring, hreading _, ?_,
    hreading _, ?_, hstring, by simp⟩
  · exact asksNameless_bind (nameless_expect 1 (some 3)) fun _ => asksNameless_bind (nameless_string 0) fun _ _ _ _ _ =>
      Accord.following_refl _
  · exact asksNameless_bind (nameless_expect 2 none) fun _ => asksNameless_bind nameless_strings fun texts =>
      asksNameless_after (nameless_typePosition texts 2) fun _ _ => _
  · exact asksNameless_bind (nameless_expect 2 none) fun _ => asksNameless_bind nameless_strings fun texts =>
      asksNameless_after (nameless_typePosition texts 1) fun _ _ => _
  · exact asksNameless_bind (nameless_expect 0 (some 1)) fun _ _ _ _ _ => Accord.following_refl _

end Surroundings

theorem nameless_pureFunctions : ∀ f ∈ pureFunctions, Nameless f.2 := by
  unfold pureFunctions
  simp only [List.mem_append]
  rintro f ((((hf | hf) | hf) | hf) | hf)
  · exact Logic.nameless_functions f hf
  · exact Arithmetic.nameless_functions f hf
  · exact Collections.nameless_functions f hf
  · exact Texts.nameless_functions f hf
  · exact Surroundings.nameless_pureFunctions f hf

def Entry.Nameless : Entry σ → Prop
  | .value f => ResourceTemplate.Nameless f
  | .asking f => Surroundings.AsksNameless f
  | .special _ => True

theorem lookup?_nameless {name : String} {entry : Entry σ} (h : lookup? σ name = some entry) : entry.Nameless := by
  unfold lookup? at h
  extract_lets key at h
  split at h
  · cases h
    trivial
  · split at h
    · rename_i f hf
      cases h
      exact nameless_pureFunctions _ (mem_of_lookup hf)
    · split at h
      · rename_i f hf
        cases h
        exact Surroundings.asksNameless_functions _ (mem_of_lookup hf)
      · split at h
        · cases h
          exact Surroundings.nameless_list
        · cases h

end Catalog
end ResourceTemplate
