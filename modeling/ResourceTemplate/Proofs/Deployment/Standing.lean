import ResourceTemplate.Proofs.Deployment.Supplied
import ResourceTemplate.Proofs.Redaction

namespace ResourceTemplate

/-- The evaluation of strings where one of them, at one pointer, gives another value than its own. -/
def Value.giving (f : Strings) (pointer w : String) (v : Json) : Strings := fun p s =>
  if p = pointer ∧ s = w then do
    let _ ← f p s
    return v
  else f p s

namespace Deployment

/-- Whether a string that is evaluated at a pointer stands at a place of an object: whatever it gave, that would be at
this place of what the object is evaluated to. -/
def StandsAt (d : Deployment) (l : Ledger) (s : Scope) (here : String) (members : Entries Json) (pointer w : String)
    (place : PropertyPath) : Prop :=
  ∀ v body t, outcome (Value.evalMembers d.options.maxCopyCount (Value.giving (Value.onHost (d.host l)) pointer w v)
    here [] members) s = (.ok body, t) → (Json.obj body).at? place = some v

def faithfully (d : Deployment) (ε : Type) : Accord ε Scope := .between fun s t => s = t ∧ d.Faithful s

/-- A step that keeps scopes faithful does the same as itself. -/
theorem faithfully_refl {d : Deployment} {ε α : Type} {m : ExceptT ε (StateM Scope) α}
    (hm : ∀ s, d.Faithful s → d.Faithful (outcome m s).2) : (d.faithfully ε).Agree m m := by
  rintro s _ ⟨rfl, hs⟩
  exact ⟨rfl, rfl, hm s hs⟩

theorem faithfully_surrounds (d : Deployment) : (d.faithfully ExpandError).Surrounds (d.faithfully ExprError) Eq where
  inside := ⟨fun _ => faithfully_refl fun _ => id⟩
  append _ h := congrArg (· ++ _) h
  lift {α f p q} hpq _ _ := by
    subst hpq
    exact faithfully_refl fun _ => id
  atPlace {α m n p q} hpq hm := by
    subst hpq
    rintro s _ ⟨rfl, hs⟩
    obtain ⟨hr, ht, hf⟩ := hm { s with pointer := p } _ ⟨rfl, hs.supplied, hs.plain⟩
    rw [ScopeM.outcome_atPlace, ScopeM.outcome_atPlace, hr, ← ht]
    exact ⟨rfl, rfl, hf.supplied, hf.plain⟩
  withLoop {α m n} name i hm := by
    rintro s _ ⟨rfl, hs⟩
    obtain ⟨hr, ht, hf⟩ := hm { s with loops := (name, (i : Int)) :: s.loops } _ ⟨rfl, hs.supplied, hs.plain⟩
    rw [ScopeM.outcome_withLoop, ScopeM.outcome_withLoop, hr, ← ht]
    exact ⟨rfl, rfl, hf.supplied, hf.plain⟩

section
variable {d : Deployment} {name w : String} {v : Json} (hv : d.IsSupplied name v) (hw : Reads w name)
include hv hw

/-- It makes no difference to give a string that reads a supplied parameter the value that is supplied. -/
theorem giving_agree (l : Ledger) (pointer : String) : Value.Strings.Agree (d.faithfully ExpandError) Eq (fun _ => True)
    (Value.giving (Value.onHost (d.host l)) pointer w v) (Value.onHost (d.host l)) := by
  rintro p _ rfl s -
  have hkeeps := Value.onHost_obey d.steady_faithful.surrounds ((d.steady_faithful.obeys l).hostAt (d.slotCount + 1)) p s
  unfold Value.giving
  split
  · rename_i h
    obtain ⟨rfl, rfl⟩ := h
    rintro t _ ⟨rfl, ht⟩
    have hk : d.Faithful (outcome (Value.onHost (d.host l) p s) t).2 := hkeeps t ht
    rw [outcome_bind]
    cases ho : outcome (Value.onHost (d.host l) p s) t with
    | mk r t' =>
      rw [ho] at hk
      cases r with
      | error e => exact ⟨rfl, rfl, hk⟩
      | ok u => exact ⟨congrArg Except.ok (eval_supplied ht hv hw l p ho), rfl, hk⟩
  · exact faithfully_refl hkeeps

/-- Where a string stands that reads a supplied parameter, there is what is supplied. -/
theorem StandsAt.at? {l : Ledger} {s t : Scope} {here pointer : String} {members body : Entries Json}
    {place : PropertyPath} (h : d.StandsAt l s here members pointer w place) (hs : d.Faithful s)
    (hbody : outcome (d.evalObject l here members) s = (.ok body, t)) : (Json.obj body).at? place = some v := by
  refine h v body t ?_
  have hagree : (d.faithfully ExpandError).Agree
      (Value.evalMembers d.options.maxCopyCount (Value.giving (Value.onHost (d.host l)) pointer w v) here [] members)
      (d.evalObject l here members) :=
    Value.agree_evalMembers d.faithfully_surrounds (giving_agree hv hw l pointer) rfl [] members fun _ _ => trivial
  obtain ⟨hr, ht, -⟩ := hagree s s ⟨rfl, hs⟩
  rw [← hbody]
  exact Prod.ext hr.symm ht

end
end Deployment

namespace Value

/-- Whether a member stands for itself: its key is no expression, and it is no copy. -/
def IsPlain (e : String × Json) : Prop := e.1.toList.head? ≠ some '[' ∧ isCopy e.1 e.2 = false

instance (e : String × Json) : Decidable (IsPlain e) := inferInstanceAs (Decidable (_ ∧ _))

/-- What is written at a place of a value under plain keys, if no later member can replace it. -/
def plainAt? : PropertyPath → Json → Option Json
  | [], v => some v
  | .index i :: place, .arr items => items[i]?.bind (plainAt? place)
  | .key key :: place, .obj members =>
    match members.dropWhile fun e => e.1 != key with
    | [] => none
    | e :: after => if IsPlain e ∧ ∀ e' ∈ after, IsPlain e' ∧ e'.1 ≠ key then plainAt? place e.2 else none
  | _, _ => none

def pointerTo (here : String) : PropertyPath → String
  | [] => here
  | .key key :: place => pointerTo (here ++ "/" ++ key) place
  | .index i :: place => pointerTo (here ++ "/" ++ String.ofList (Integer.natText i)) place
  | .wildcard :: place => pointerTo here place

/-- What is written under a key is a plain member that plain members of other keys follow. -/
theorem plainAt?_key {members : List (String × Json)} {key : String} {place : PropertyPath} {w : Json}
    (h : plainAt? (.key key :: place) (.obj members) = some w) :
    ∃ before v after, members = before ++ (key, v) :: after ∧ IsPlain (key, v) ∧
      (∀ e ∈ after, IsPlain e ∧ e.1 ≠ key) ∧ plainAt? place v = some w := by
  unfold plainAt? at h
  split at h
  · cases h
  · rename_i e after hdrop
    split at h
    · rename_i hplain
      have hsplit := List.takeWhile_append_dropWhile (p := fun e : String × Json => e.1 != key) (l := members)
      have hkey := List.head?_dropWhile_not (fun e : String × Json => e.1 != key) members
      rw [hdrop] at hsplit hkey
      have hkey : e.1 = key := by simpa using hkey
      obtain ⟨_, v⟩ := e
      cases hkey
      exact ⟨_, v, after, hsplit.symm, hplain.1, hplain.2, h⟩
    · cases h

theorem plainAt?_append {place rest : PropertyPath} {v : Json} :
    plainAt? (place ++ rest) v = (plainAt? place v).bind (plainAt? rest) := by
  induction place generalizing v with
  | nil => rfl
  | cons step place ih =>
    cases step with
    | key key =>
      cases v with
      | obj members =>
        rw [List.cons_append, plainAt?, plainAt?]
        split
        · rfl
        · split
          · exact ih
          · rfl
      | _ => rfl
    | index i =>
      cases v with
      | arr items =>
        rw [List.cons_append, plainAt?, plainAt?]
        cases items[i]? with
        | none => rfl
        | some v => exact ih
      | _ => rfl
    | wildcard => cases v <;> rfl

section
variable {maxCount : Nat} {f : Strings} {here : String} {s t : Scope}

theorem getElem?_evalItems {n i : Nat} {items values : List Json} {v : Json} (hv : items[i]? = some v)
    (h : outcome (evalItems maxCount f here n items) s = (.ok values, t)) :
    ∃ u u' x, outcome (eval maxCount f (here ++ "/" ++ String.ofList (Integer.natText (n + i))) v) u = (.ok x, u') ∧
      values[i]? = some x := by
  induction items generalizing n i values s with
  | nil => cases hv
  | cons w items ih =>
    obtain ⟨x, u, hx, h⟩ := outcome_bind_eq_ok.mp h
    obtain ⟨xs, _, hxs, h⟩ := outcome_bind_eq_ok.mp h
    cases h
    cases i with
    | zero =>
      cases hv
      exact ⟨s, u, x, hx, rfl⟩
    | succ i =>
      obtain ⟨u, u', y, hy, hi⟩ := ih hv hxs
      exact ⟨u, u', y, Nat.add_right_comm n 1 i ▸ hy, hi⟩

theorem evalMembers_plain {acc body : Entries Json} {members : List (String × Json)} {e : String × Json}
    (hp : IsPlain e) (h : outcome (evalMembers maxCount f here acc (e :: members)) s = (.ok body, t)) :
    ∃ x u, outcome (eval maxCount f (here ++ "/" ++ e.1) e.2) s = (.ok x, u) ∧
      outcome (evalMembers maxCount f here (acc.insert e.1 x) members) u = (.ok body, t) := by
  unfold evalMembers Value.key at h
  dsimp only at h
  rw [hp.2, if_neg Bool.false_ne_true, if_neg (by simpa using hp.1)] at h
  obtain ⟨_, _, hk, h⟩ := outcome_bind_eq_ok.mp h
  cases hk
  exact (outcome_bind_eq_ok.mp h)

theorem outcome_evalMembers_plain {acc : Entries Json} {members : List (String × Json)} {e : String × Json} {x : Json}
    (hp : IsPlain e) (hx : outcome (eval maxCount f (here ++ "/" ++ e.1) e.2) s = (.ok x, t)) :
    outcome (evalMembers maxCount f here acc (e :: members)) s =
      outcome (evalMembers maxCount f here (acc.insert e.1 x) members) t := by
  conv_lhs => unfold evalMembers Value.key
  dsimp only
  rw [hp.2, if_neg Bool.false_ne_true, if_neg (by simpa using hp.1), outcome_bind, outcome_pure]
  dsimp only
  rw [outcome_bind, hx]

theorem get?_evalMembers_plain {acc body : Entries Json} {members : List (String × Json)} {key : String}
    (hplain : ∀ e ∈ members, IsPlain e ∧ e.1 ≠ key)
    (h : outcome (evalMembers maxCount f here acc members) s = (.ok body, t)) : body.get? key = acc.get? key := by
  induction members generalizing acc s with
  | nil =>
    cases h
    rfl
  | cons e members ih =>
    obtain ⟨⟨hp, hkey⟩, hplain⟩ := List.forall_mem_cons.mp hplain
    obtain ⟨x, u, -, h⟩ := evalMembers_plain hp h
    rw [ih hplain h, Entries.get?_insert, if_neg (Ne.symm hkey)]

theorem get?_evalMembers {acc body : Entries Json} {before after : List (String × Json)} {key : String} {v : Json}
    (hk : IsPlain (key, v)) (hafter : ∀ e ∈ after, IsPlain e ∧ e.1 ≠ key)
    (h : outcome (evalMembers maxCount f here acc (before ++ (key, v) :: after)) s = (.ok body, t)) :
    ∃ u u' x, outcome (eval maxCount f (here ++ "/" ++ key) v) u = (.ok x, u') ∧ body.get? key = some x := by
  induction before generalizing acc s with
  | nil =>
    obtain ⟨x, u, hx, h⟩ := evalMembers_plain hk h
    refine ⟨_, _, x, hx, ?_⟩
    rw [get?_evalMembers_plain hafter h, Entries.get?_insert, if_pos rfl]
  | cons e before ih =>
    rw [List.cons_append] at h
    unfold evalMembers at h
    dsimp only at h
    split at h
    · obtain ⟨_, _, -, h⟩ := outcome_bind_eq_ok.mp h
      exact ih h
    · obtain ⟨_, _, -, h⟩ := outcome_bind_eq_ok.mp h
      obtain ⟨_, _, -, h⟩ := outcome_bind_eq_ok.mp h
      exact ih h

/-- The names of an object whose members are plain are those that are written. -/
theorem mem_keys_evalMembers {body : Entries Json} {members : List (String × Json)} (hplain : ∀ e ∈ members, IsPlain e)
    (h : outcome (evalMembers maxCount f here [] members) s = (.ok body, t)) {e : String × Json} (he : e ∈ body) :
    ∃ e' ∈ members, e'.1 = e.1 := by
  by_contra hother
  have hothers : ∀ e' ∈ members, IsPlain e' ∧ e'.1 ≠ e.1 := fun e' he' =>
    ⟨hplain e' he', fun hk => hother ⟨e', he', hk⟩⟩
  have hget := get?_evalMembers_plain hothers h
  have hhas := Entries.get?_eq_none_iff.mp hget
  exact absurd (BEq.refl e.1) (List.any_eq_false.mp hhas e he)

theorem at?_of_plainAt? {place : PropertyPath} {v x y : Json} (hv : plainAt? place v = some y)
    (h : outcome (eval maxCount f here v) s = (.ok x, t)) :
    ∃ u u' z, outcome (eval maxCount f (pointerTo here place) y) u = (.ok z, u') ∧ x.at? place = some z := by
  induction place generalizing here v x s t with
  | nil =>
    cases hv
    exact ⟨s, t, x, h, rfl⟩
  | cons step place ih =>
    cases step with
    | key key =>
      cases v with
      | obj members =>
        obtain ⟨before, v, after, rfl, hk, hafter, hv⟩ := plainAt?_key hv
        obtain ⟨body, _, hbody, h⟩ := outcome_bind_eq_ok.mp h
        cases h
        obtain ⟨u, u', w, hw, hget⟩ := get?_evalMembers hk hafter hbody
        obtain ⟨u, u', z, hz, hat⟩ := ih hv hw
        exact ⟨u, u', z, hz, Json.at?_key.mpr ⟨_, w, rfl, hget, hat⟩⟩
      | _ => cases hv
    | index i =>
      cases v with
      | arr items =>
        obtain ⟨v, hi, hv⟩ := Option.bind_eq_some_iff.mp hv
        obtain ⟨values, _, hvalues, h⟩ := outcome_bind_eq_ok.mp h
        cases h
        obtain ⟨u, u', w, hw, hget⟩ := getElem?_evalItems hi hvalues
        rw [Nat.zero_add] at hw
        obtain ⟨u, u', z, hz, hat⟩ := ih hv hw
        exact ⟨u, u', z, hz, Json.at?_index.mpr ⟨_, w, rfl, hget, hat⟩⟩
      | _ => cases hv
    | wildcard => cases v <;> cases hv

end
end Value

/-- A string of an object stands at the plain place where it is written. -/
theorem Deployment.StandsAt.of_plainAt? {d : Deployment} {l : Ledger} {s : Scope} {here w : String}
    {members : Entries Json} {place : PropertyPath} (h : Value.plainAt? place (.obj members) = some (.str w)) :
    d.StandsAt l s here members (Value.pointerTo here place) w place := by
  intro v body t hbody
  obtain ⟨u, u', z, hz, hat⟩ := Value.at?_of_plainAt? h (outcome_bind_eq_ok.mpr ⟨body, t, hbody, rfl⟩)
  unfold Value.eval Value.giving at hz
  rw [if_pos ⟨rfl, rfl⟩] at hz
  obtain ⟨_, _, -, hz⟩ := outcome_bind_eq_ok.mp hz
  cases hz
  exact hat

end ResourceTemplate
