import Mathlib.Data.List.Forall2
import ResourceTemplate.Proofs.Deployment.Strings
import ResourceTemplate.Proofs.Discipline
import ResourceTemplate.Proofs.Entries
import ResourceTemplate.Proofs.Text.Pieces

namespace ResourceTemplate

theorem Name.bracketed_of_fold {key name : String} (h : fold key = fold name) (hb : key.toList.head? = some '[') :
    name.toList.head? = some '[' := by
  have hfold := congrArg (fun s => s.toList.head?) h
  simp only [fold, String.toList_ofList, List.head?_map] at hfold
  rw [hb] at hfold
  obtain ⟨c, hc, hl⟩ := Option.map_eq_some_iff.mp hfold.symm
  have hbracket : c = '[' := (Text.toLower_eq_iff (by decide) rfl).mp hl
  exact hc.trans (congrArg some hbracket)

namespace Entries

variable {α β : Type} {es : Entries α}

/-- Entries that are looked up in step have what is looked up in step. -/
theorem getNamed?_forall₂ {P : String → α → β → Prop} {fs : Entries β}
    (h : List.Forall₂ (fun e f => f.1 = e.1 ∧ P e.1 e.2 f.2) es fs) (name : String) :
    Option.Rel (fun v w => ∃ key, P key v w) (es.getNamed? name) (fs.getNamed? name) := by
  have found (p : String → Bool) : Option.Rel (fun v w => ∃ key, P key v w)
      ((es.find? fun e => p e.1).map Prod.snd) ((fs.find? fun f => p f.1).map Prod.snd) := by
    induction h with
    | nil => exact .none
    | @cons e f es fs he _ ih =>
      obtain ⟨hkey, he⟩ := he
      rw [List.find?_cons, List.find?_cons, hkey]
      cases p e.1 with
      | true => exact .some ⟨e.1, he⟩
      | false => exact ih
  have hget := found (· == name)
  change Option.Rel _ (es.get? name) (fs.get? name) at hget
  unfold getNamed?
  generalize es.get? name = x at hget
  generalize fs.get? name = y at hget
  cases hget with
  | some hv => exact .some hv
  | none => exact found (Name.same · name)

theorem keys_eq_of_forall₂ {P : String × α → String × β → Prop} {fs : Entries β}
    (h : List.Forall₂ (fun e f => f.1 = e.1 ∧ P e f) es fs) : fs.keys = es.keys := by
  induction h with
  | nil => rfl
  | cons he _ ih => exact congrArg₂ List.cons he.1 ih

def unbracketed (es : Entries α) : Entries α := es.filter fun e => e.1.toList.head? != some '['

theorem mem_unbracketed {e : String × α} : e ∈ es.unbracketed ↔ e ∈ es ∧ e.1.toList.head? ≠ some '[' := by
  simp [unbracketed]

theorem getNamed?_unbracketed {name : String} (h : name.toList.head? ≠ some '[') :
    es.unbracketed.getNamed? name = es.getNamed? name := by
  have found (p : String → Bool) (hp : ∀ key, p key = true → Name.fold key = Name.fold name) :
      (es.unbracketed.find? fun e => p e.1) = es.find? fun e => p e.1 := by
    unfold unbracketed
    rw [List.find?_filter]
    refine congrArg (List.find? · es) (funext fun e => ?_)
    cases hpe : p e.1 with
    | false => exact decide_eq_false fun h => Bool.false_ne_true h.2
    | true =>
      refine decide_eq_true ⟨?_, rfl⟩
      rw [bne_iff_ne]
      exact fun hb => h (Name.bracketed_of_fold (hp e.1 hpe) hb)
  unfold getNamed? get?
  rw [found (· == name) fun key hk => by rw [beq_iff_eq.mp hk], found (Name.same · name) fun _ => Name.same_iff.mp]

theorem unbracketed_insert_bracketed {key : String} (h : key.toList.head? = some '[') (v : α) :
    (es.insert key v).unbracketed = es.unbracketed := by
  exact filter_insert_of_not (p := fun key => key.toList.head? != some '[') (by simp [h]) es v

theorem unbracketed_insert {key : String} (h : key.toList.head? ≠ some '[') (hn : key ∉ es.unbracketed.keys) (v : α) :
    (es.insert key v).unbracketed = es.unbracketed ++ [(key, v)] := by
  have hnot : key ∉ es.keys := by
    intro hk
    obtain ⟨e, he, rfl⟩ := List.mem_map.mp hk
    exact hn (List.mem_map_of_mem (mem_unbracketed.mpr ⟨he, h⟩))
  rw [insert_of_notMem hnot]
  simp [unbracketed, h]

end Entries

namespace Value

variable {maxCount : Nat} {host : Host Scope} {here : String} {s t : Scope} {acc body : Entries Json}

/-- Whether the keys of an object stand for themselves: none is an expression, and none stands for copies. -/
def HasLiteralKeys (members : Entries Json) : Prop :=
  ∀ key ∈ members.keys, Expr.isExpression key = false ∧ Name.same key "copy" = false

theorem isCopy_eq_false {key : String} (h : Name.same key "copy" = false) (v : Json) : isCopy key v = false := by
  unfold isCopy
  split
  · rw [h]
    rfl
  · rfl

/-- A member under a literal key is evaluated, and the others after it. -/
theorem outcome_evalMembers_cons {key text : String} (hk : TemplateString.parse key = .ok (.literal text))
    (hc : Name.same key "copy" = false) (v : Json) (members : List (String × Json)) (s : Scope) :
    outcome (evalMembers maxCount (onHost host) here acc ((key, v) :: members)) s =
      outcome (do
        let x ← eval maxCount (onHost host) (here ++ "/" ++ key) v
        evalMembers maxCount (onHost host) here (acc.insert text x) members) s := by
  conv_lhs => unfold evalMembers
  dsimp only
  rw [isCopy_eq_false hc, if_neg Bool.false_ne_true, outcome_bind, outcome_key_literal host _ s hk]

section
variable {R : Scope → Scope → Prop} (hR : Frame R)
  (hf : ∀ pointer v, (changing hR).Obeys (eval maxCount (onHost host) pointer v))
include hf

/-- What an object is evaluated to has its members in their order, each evaluated from a scope in between. -/
theorem evalMembers_forall₂ {members : Entries Json} (hm : HasLiteralKeys members)
    (hn : (acc.unbracketed.keys ++ members.unbracketed.keys).Nodup)
    (h : outcome (evalMembers maxCount (onHost host) here acc members) s = (.ok body, t)) :
    ∃ values, body.unbracketed = acc.unbracketed ++ values ∧
      List.Forall₂ (fun e f => f.1 = e.1 ∧ ∃ u u', R s u ∧
        outcome (eval maxCount (onHost host) (here ++ "/" ++ e.1) e.2) u = (.ok f.2, u'))
        members.unbracketed values := by
  induction members generalizing acc s with
  | nil =>
    cases h
    exact ⟨[], (List.append_nil _).symm, .nil⟩
  | cons e members ih =>
    obtain ⟨⟨hkey, hcopy⟩, hm⟩ := List.forall_mem_cons.mp hm
    obtain ⟨text, htext, hbracket⟩ := TemplateString.exists_literal hkey
    rw [outcome_evalMembers_cons htext hcopy] at h
    obtain ⟨x, u, hx, h⟩ := outcome_bind_eq_ok.mp h
    have hu : R s u := by
      have hstep := hf (here ++ "/" ++ e.1) e.2 s
      rwa [hx] at hstep
    -- what is evaluated from a later scope is so from this one
    have hlater {values : Entries Json} (hall : List.Forall₂ (fun e f => f.1 = e.1 ∧ ∃ v v', R u v ∧
        outcome (eval maxCount (onHost host) (here ++ "/" ++ e.1) e.2) v = (.ok f.2, v'))
        (Entries.unbracketed members) values) : List.Forall₂ (fun e f => f.1 = e.1 ∧ ∃ v v', R s v ∧
        outcome (eval maxCount (onHost host) (here ++ "/" ++ e.1) e.2) v = (.ok f.2, v'))
        (Entries.unbracketed members) values := by
      refine hall.imp fun _ _ => ?_
      rintro ⟨hkey, v, v', hv, hval⟩
      exact ⟨hkey, v, v', hR.trans _ _ _ hu hv, hval⟩
    by_cases hb : e.1.toList.head? = some '['
    · -- its text begins with a bracket too
      have hskip : Entries.unbracketed (e :: members) = Entries.unbracketed members := by simp [Entries.unbracketed, hb]
      have hacc : (acc.insert text x).unbracketed = acc.unbracketed :=
        Entries.unbracketed_insert_bracketed (hbracket.mpr hb) x
      rw [hskip] at hn ⊢
      obtain ⟨values, hvalues, hall⟩ := ih hm (hacc ▸ hn) h
      exact ⟨values, hacc ▸ hvalues, hlater hall⟩
    · obtain rfl := TemplateString.eq_of_literal hb htext
      have htake : Entries.unbracketed (e :: members) = e :: Entries.unbracketed members := by
        simp [Entries.unbracketed, hb]
      rw [htake] at hn ⊢
      have hfresh : e.1 ∉ acc.unbracketed.keys := fun he =>
        (List.nodup_append.mp hn).2.2 e.1 he e.1 List.mem_cons_self rfl
      have hacc := Entries.unbracketed_insert hb hfresh x
      have hkeys : (acc.insert e.1 x).unbracketed.keys ++ (Entries.unbracketed members).keys =
          acc.unbracketed.keys ++ Entries.keys (e :: Entries.unbracketed members) := by
        simp [hacc, Entries.keys]
      obtain ⟨values, hvalues, hall⟩ := ih hm (hkeys ▸ hn) h
      refine ⟨(e.1, x) :: values, ?_, .cons ⟨rfl, s, u, hR.refl s, hx⟩ (hlater hall)⟩
      rw [hvalues, hacc, List.append_assoc, List.singleton_append]

/-- A name that does not begin with a bracket has what the member of this name was evaluated to, if there is one. -/
theorem getNamed?_evalMembers {members : Entries Json} (hm : HasLiteralKeys members) (hn : members.keys.Nodup)
    (h : outcome (evalMembers maxCount (onHost host) here [] members) s = (.ok body, t)) {name : String}
    (hname : name.toList.head? ≠ some '[') :
    Option.Rel (fun v w => ∃ key u u', R s u ∧
      outcome (eval maxCount (onHost host) (here ++ "/" ++ key) v) u = (.ok w, u'))
      (members.getNamed? name) (body.getNamed? name) := by
  have hsub : members.unbracketed.keys.Nodup := hn.sublist (List.filter_sublist.map Prod.fst)
  obtain ⟨values, hvalues, hall⟩ := evalMembers_forall₂ hR hf hm (by exact hsub) h
  have hbody : body.getNamed? name = body.unbracketed.getNamed? name := (Entries.getNamed?_unbracketed hname).symm
  rw [← Entries.getNamed?_unbracketed hname, hbody, hvalues]
  exact Entries.getNamed?_forall₂ (P := fun key v w => ∃ u u', R s u ∧
    outcome (eval maxCount (onHost host) (here ++ "/" ++ key) v) u = (.ok w, u')) hall name

omit hf in
/-- An object is evaluated if each of its members is, wherever it begins. -/
theorem evalMembers_ok {G : Scope → Prop} {members : Entries Json} (hm : HasLiteralKeys members)
    (h : ∀ e ∈ members, ∀ u, G u → ∃ x u',
      outcome (eval maxCount (onHost host) (here ++ "/" ++ e.1) e.2) u = (.ok x, u') ∧ G u')
    (hs : G s) : ∃ body t, outcome (evalMembers maxCount (onHost host) here acc members) s = (.ok body, t) := by
  induction members generalizing acc s with
  | nil => exact ⟨acc, s, rfl⟩
  | cons e members ih =>
    obtain ⟨⟨hkey, hcopy⟩, hm⟩ := List.forall_mem_cons.mp hm
    obtain ⟨he, h⟩ := List.forall_mem_cons.mp h
    obtain ⟨text, htext, -⟩ := TemplateString.exists_literal hkey
    obtain ⟨x, u, hx, hu⟩ := he s hs
    obtain ⟨body, t, hbody⟩ : ∃ body t,
        outcome (evalMembers maxCount (onHost host) here (acc.insert text x) members) u = (.ok body, t) := ih hm h hu
    refine ⟨body, t, (outcome_evalMembers_cons htext hcopy e.2 members s).trans ?_⟩
    exact outcome_bind_eq_ok.mpr ⟨x, u, hx, hbody⟩

end

/-- A key of what an object is evaluated to is one of its own, or begins with a bracket. -/
theorem bracketed_or_mem_keys {members : Entries Json} (hm : HasLiteralKeys members) (hn : members.keys.Nodup)
    (h : outcome (evalMembers maxCount (onHost host) here [] members) s = (.ok body, t)) {key : String}
    (hk : key ∈ body.keys) : key.toList.head? = some '[' ∨ key ∈ members.keys := by
  have hR : Frame fun _ _ : Scope => True := ⟨fun _ => trivial, fun _ _ _ _ _ => trivial⟩
  have hsub : members.unbracketed.keys.Nodup := hn.sublist (List.filter_sublist.map Prod.fst)
  obtain ⟨values, hvalues, hall⟩ := evalMembers_forall₂ hR (fun _ _ _ => trivial) hm (by exact hsub) h
  refine or_iff_not_imp_left.mpr fun hb => ?_
  obtain ⟨f, hf, rfl⟩ := List.mem_map.mp hk
  have hvalue : f ∈ values := by
    have hmem := Entries.mem_unbracketed.mpr ⟨hf, hb⟩
    rwa [hvalues] at hmem
  have hkey := List.mem_map_of_mem (f := Prod.fst) hvalue
  rw [show values.map Prod.fst = _ from Entries.keys_eq_of_forall₂ hall] at hkey
  obtain ⟨e, he, hkey⟩ := List.mem_map.mp hkey
  exact hkey ▸ List.mem_map_of_mem (Entries.mem_unbracketed.mp he).1

end Value
end ResourceTemplate
