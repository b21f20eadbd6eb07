import ResourceTemplate.Proofs.Entries
import ResourceTemplate.Proofs.Template.Declarations

namespace ResourceTemplate.Template

abbrev Address := List Nat

def nested : Json → List Json
  | .obj es => arrayItems (field? es "resources")
  | _ => []

def declared? : Address → Json → Option Json
  | [], v => some v
  | i :: rest, v => (nested v)[i]?.bind (declared? rest)

def pointerBelow (pointer : String) : Address → String
  | [] => pointer
  | i :: rest => pointerBelow (pointer ++ "/resources/" ++ String.ofList (Integer.natText i)) rest

/-- Whether a value is at an address among values that are counted from `i` on. -/
def DeclaredIn (vs : List Json) (i : Nat) (a : Address) (w : Json) : Prop :=
  ∃ k v rest, vs[k]? = some v ∧ a = (i + k) :: rest ∧ declared? rest v = some w

theorem declaredIn_nil {i : Nat} {a : Address} {w : Json} : ¬ DeclaredIn [] i a w := by
  rintro ⟨k, v, rest, hv, -⟩
  simp at hv

theorem declaredIn_cons {v w : Json} {vs : List Json} {i : Nat} {a : Address} : DeclaredIn (v :: vs) i a w ↔
    (∃ rest, a = i :: rest ∧ declared? rest v = some w) ∨ DeclaredIn vs (i + 1) a w := by
  constructor
  · rintro ⟨k, u, rest, hu, rfl, hw⟩
    cases k with
    | zero =>
      cases hu
      exact Or.inl ⟨rest, rfl, hw⟩
    | succ k => exact Or.inr ⟨k, u, rest, hu, by rw [Nat.add_right_comm, Nat.add_assoc], hw⟩
  · rintro (⟨rest, rfl, hw⟩ | ⟨k, u, rest, hu, rfl, hw⟩)
    · exact ⟨0, v, rest, rfl, rfl, hw⟩
    · exact ⟨k + 1, u, rest, hu, by rw [Nat.add_right_comm, Nat.add_assoc], hw⟩

theorem declaredIn_nested {v w : Json} {a : Address} :
    DeclaredIn (nested v) 0 a w ↔ a ≠ [] ∧ declared? a v = some w := by
  constructor
  · rintro ⟨k, u, rest, hu, rfl, hw⟩
    rw [Nat.zero_add, declared?, hu]
    exact ⟨List.cons_ne_nil k rest, hw⟩
  · rintro ⟨hne, hw⟩
    cases a with
    | nil => exact absurd rfl hne
    | cons k rest =>
      obtain ⟨u, hu, hw⟩ := Option.bind_eq_some_iff.mp hw
      exact ⟨k, u, rest, hu, by rw [Nat.zero_add], hw⟩

/-- Whether a declaration is what was read, or that with the type and the name of the one it stands in before its
own. -/
def TakesAfter (parent : Option ResourceDeclaration) (read decl : ResourceDeclaration) : Prop :=
  decl.parent = parent.map (·.ordinal) ∧ decl = (parent.map (qualify read)).getD read

/-- Whether a declaration is read of a value at a place and takes after the one it stands in. -/
def ReadAs (pointer : String) (parent : Option ResourceDeclaration) (v : Json) (decl : ResourceDeclaration) : Prop :=
  ∃ read, readResource pointer decl.ordinal decl.parent v = .ok read ∧ TakesAfter parent read decl

/-- Declarations with their addresses: those of values that stand in one list, counted from `i` on, and of all that is
nested in these. -/
structure Laid (pointer : String) (parent : Option ResourceDeclaration) (i : Nat) (vs : List Json)
    (entries : List (Address × ResourceDeclaration)) : Prop where
  preorder : (entries.map Prod.fst).Pairwise (· < ·)
  complete (a : Address) : a ∈ entries.map Prod.fst ↔ ∃ w, DeclaredIn vs i a w
  own : ∀ e ∈ entries, ∃ w, DeclaredIn vs i e.1 w ∧
    (e.1.length = 1 ∧ ReadAs (pointerBelow pointer e.1) parent w e.2 ∨
      ∃ p, (e.1.dropLast, p) ∈ entries ∧ ReadAs (pointerBelow pointer e.1) (some p) w e.2)

namespace Laid

variable {pointer : String} {parent : Option ResourceDeclaration} {i : Nat}

theorem nil : Laid pointer parent i [] [] where
  preorder := .nil
  complete a := by simp [declaredIn_nil]
  own e he := by cases he

/-- The declaration of a value, then those nested in it, then those of the values after it. -/
theorem cons {v : Json} {vs : List Json} {decl : ResourceDeclaration}
    {below after : List (Address × ResourceDeclaration)} (hread : ReadAs (pointerBelow pointer [i]) parent v decl)
    (hbelow : Laid (pointerBelow pointer [i]) (some decl) 0 (nested v) below)
    (hafter : Laid pointer parent (i + 1) vs after) :
    Laid pointer parent i (v :: vs) (([i], decl) :: below.map (fun e => (i :: e.1, e.2)) ++ after) := by
  have haddresses : (([i], decl) :: below.map (fun e => (i :: e.1, e.2)) ++ after).map Prod.fst =
      ([] :: below.map Prod.fst).map (i :: ·) ++ after.map Prod.fst := by
    simp [Function.comp_def]
  have hnil : [] ∉ below.map Prod.fst := fun h => by
    obtain ⟨w, hw⟩ := (hbelow.complete []).mp h
    exact (declaredIn_nested.mp hw).1 rfl
  refine ⟨?_, fun a => ?_, fun e he => ?_⟩
  · rw [haddresses]
    refine Positions.pairwise_branch (Positions.pairwise_below hbelow.preorder hnil) hafter.preorder fun a ha => ?_
    obtain ⟨w, k, u, rest, -, rfl, -⟩ := (hafter.complete a).mp ha
    exact ⟨_, rest, rfl, by omega⟩
  · simp only [haddresses, List.mem_append, List.mem_map, declaredIn_cons, exists_or, ← hafter.complete]
    refine or_congr_left ?_
    constructor
    · rintro ⟨rest, hr, rfl⟩
      rcases List.mem_cons.mp hr with rfl | hr
      · exact ⟨v, [], rfl, rfl⟩
      · obtain ⟨w, hw⟩ := (hbelow.complete rest).mp hr
        exact ⟨w, rest, rfl, (declaredIn_nested.mp hw).2⟩
    · rintro ⟨w, rest, rfl, hw⟩
      refine ⟨rest, List.mem_cons.mpr ?_, rfl⟩
      by_cases hne : rest = []
      · exact Or.inl hne
      · exact Or.inr ((hbelow.complete rest).mpr ⟨w, declaredIn_nested.mpr ⟨hne, hw⟩⟩)
  · rcases List.mem_append.mp he with he | he
    · rcases List.mem_cons.mp he with rfl | he
      · exact ⟨v, declaredIn_cons.mpr (Or.inl ⟨[], rfl, rfl⟩), Or.inl ⟨rfl, hread⟩⟩
      · -- what is nested has its address below that of the value
        obtain ⟨e, hm, rfl⟩ := List.mem_map.mp he
        obtain ⟨w, hw, hparent⟩ := hbelow.own e hm
        obtain ⟨hne, hd⟩ := declaredIn_nested.mp hw
        refine ⟨w, declaredIn_cons.mpr (Or.inl ⟨e.1, rfl, hd⟩), Or.inr ?_⟩
        rw [List.dropLast_cons_of_ne_nil hne]
        rcases hparent with ⟨hone, hp⟩ | ⟨p, hm', hp⟩
        · refine ⟨decl, ?_, hp⟩
          have hlast : e.1.dropLast = [] := List.eq_nil_of_length_eq_zero (by rw [List.length_dropLast, hone])
          rw [hlast]
          exact List.mem_append_left _ List.mem_cons_self
        · refine ⟨p, ?_, hp⟩
          exact List.mem_append_left _ (List.mem_cons_of_mem _ (List.mem_map_of_mem hm'))
    · obtain ⟨w, hw, hparent⟩ := hafter.own e he
      refine ⟨w, declaredIn_cons.mpr (Or.inr hw), hparent.imp_right ?_⟩
      rintro ⟨p, hm, hp⟩
      exact ⟨p, List.mem_append_right _ hm, hp⟩

end Laid

def nestedAmong (all : Entries Json) : List (String × Json) → List Json
  | [] => []
  | (k, v) :: rest => if isNested all k then arrayItems (some v) else nestedAmong all rest

theorem nestedAmong_self (es : Entries Json) : nestedAmong es es = nested (.obj es) := by
  rw [nested, field?]
  cases hs : es.spelling? "resources" with
  | some key =>
    rw [Entries.getNamed?_of_spelling? hs]
    have hfind (fs : Entries Json) : nestedAmong es fs = arrayItems (fs.get? key) := by
      induction fs with
      | nil => rfl
      | cons e fs ih =>
        rw [nestedAmong, ih, isNested, hs, Entries.get?_cons]
        by_cases hk : e.1 = key
        · simp [hk]
        · simp [hk, Ne.symm hk]
    exact hfind es
  | none =>
    have hnone : es.getNamed? "resources" = none := by
      unfold Entries.spelling? at hs
      unfold Entries.getNamed?
      split at hs
      · cases hs
      · rename_i hhas
        rw [Entries.get?_eq_none_iff.mpr (Bool.eq_false_iff.mpr hhas)]
        simpa using hs
    have hfind (fs : Entries Json) : nestedAmong es fs = [] := by
      induction fs with
      | nil => rfl
      | cons e fs ih =>
        rw [nestedAmong, ih, isNested, hs]
        rfl
    rw [hfind, hnone]
    rfl

mutual

theorem flatten_laid (pointer : String) (ordinal : Nat) (parent : Option ResourceDeclaration) :
    (v : Json) → {ds : List ResourceDeclaration} → flatten pointer ordinal parent v = .ok ds →
    ∃ decl below, ds = decl :: below.map Prod.snd ∧ ReadAs pointer parent v decl ∧
      Laid pointer (some decl) 0 (nested v) below
  | .obj es, ds, h => by
    unfold flatten at h
    obtain ⟨read, hr, h⟩ := bind_eq_ok.mp h
    obtain ⟨ns, hn, h⟩ := bind_eq_ok.mp h
    cases h
    obtain ⟨hordinal, hparent⟩ := readResource_ok hr
    obtain ⟨below, rfl, hbelow⟩ := flattenNested_laid pointer (ordinal + 1) _ es es hn
    rw [nestedAmong_self] at hbelow
    refine ⟨_, below, rfl, ?_, hbelow⟩
    cases parent with
    | none => exact ⟨read, by rw [hordinal, hparent]; exact hr, hparent, rfl⟩
    | some p =>
      obtain ⟨hq, hqp⟩ := qualify_keeps read p
      exact ⟨read, by rw [hq, hqp, hordinal, hparent]; exact hr, hqp.trans hparent, rfl⟩
  | .arr _, _, h => by cases h
  | .null, _, h => by cases h
  | .bool _, _, h => by cases h
  | .num _, _, h => by cases h
  | .str _, _, h => by cases h

theorem flattenNested_laid (pointer : String) (ordinal : Nat) (decl : ResourceDeclaration) (all : Entries Json) :
    (es : List (String × Json)) → {ds : List ResourceDeclaration} →
    flattenNested pointer ordinal decl all es = .ok ds →
    ∃ below, ds = below.map Prod.snd ∧ Laid pointer (some decl) 0 (nestedAmong all es) below
  | [], _, h => by
    cases h
    exact ⟨[], rfl, .nil⟩
  | (k, v) :: rest, ds, h => by
    unfold flattenNested at h
    unfold nestedAmong
    split at h
    · rename_i hk
      rw [if_pos hk]
      cases v with
      | arr children => exact flattenAll_laid pointer ordinal (some decl) 0 children h
      | _ =>
        cases h
        exact ⟨[], rfl, .nil⟩
    · rename_i hk
      rw [if_neg hk]
      exact flattenNested_laid pointer ordinal decl all rest h

theorem flattenAll_laid (pointer : String) (ordinal : Nat) (parent : Option ResourceDeclaration) (i : Nat) :
    (vs : List Json) → {ds : List ResourceDeclaration} →
    flattenAll (pointer ++ "/resources/") ordinal parent i vs = .ok ds →
    ∃ entries, ds = entries.map Prod.snd ∧ Laid pointer parent i vs entries
  | [], _, h => by
    cases h
    exact ⟨[], rfl, .nil⟩
  | v :: vs, ds, h => by
    unfold flattenAll at h
    obtain ⟨block, hb, h⟩ := bind_eq_ok.mp h
    obtain ⟨others, ho, h⟩ := bind_eq_ok.mp h
    cases h
    obtain ⟨decl, below, rfl, hread, hbelow⟩ := flatten_laid _ ordinal parent v hb
    obtain ⟨after, rfl, hafter⟩ := flattenAll_laid pointer _ parent (i + 1) vs ho
    refine ⟨_, ?_, .cons hread hbelow hafter⟩
    simp [Function.comp_def]

end

/-- The declarations of a template whose resources are not keyed are laid out below it. -/
theorem ofJson_laid {v : Json} {t : Template} (h : ofJson v = .ok t) (hs : t.symbolic = false) :
    ∃ entries, t.resources = entries.map Prod.snd ∧ Laid "" none 0 (nested v) entries := by
  obtain ⟨-, es, rfl, ⟨-, hitems⟩ | ⟨members, -, hkeyed, -⟩⟩ := ofJson_reads h
  · exact flattenAll_laid "" 0 none 0 _ hitems
  · rw [hs] at hkeyed
    cases hkeyed

/-- Whether a value is that of a declaration of a template, at an address: the declaration is read of it, and takes
after the one that is read where the address leads before. Where the resources of a template have names, the address
is the position of the name. -/
inductive Declares (source : Json) : Address → Json → ResourceDeclaration → Prop
  | outer {i : Nat} {w : Json} {decl : ResourceDeclaration} (hw : (nested source)[i]? = some w)
      (h : ReadAs (pointerBelow "" [i]) none w decl) : Declares source [i] w decl
  | inner {a : Address} {i : Nat} {v w : Json} {parent decl : ResourceDeclaration} (hv : Declares source a v parent)
      (hw : (nested v)[i]? = some w) (h : ReadAs (pointerBelow "" (a ++ [i])) (some parent) w decl) :
      Declares source (a ++ [i]) w decl
  | named {i : Nat} {name : String} {es members : Entries Json} {w : Json} {decl : ResourceDeclaration}
      (hs : source = .obj es) (hm : field? es "resources" = some (.obj members)) (hw : members[i]? = some (name, w))
      (h : readResource ("/resources/" ++ name) i none w = .ok decl) :
      Declares source [i] w { decl with symbolicName := some name }

theorem declared?_singleton (i : Nat) (v : Json) : declared? [i] v = (nested v)[i]? :=
  Option.bind_fun_some _

theorem declared?_append (a b : Address) (v : Json) : declared? (a ++ b) v = (declared? a v).bind (declared? b) := by
  induction a generalizing v with
  | nil => rfl
  | cons i a ih =>
    rw [List.cons_append, declared?, declared?, Option.bind_assoc]
    exact congrArg _ (funext ih)

/-- Declarations that are laid out below a template are those of the values at their addresses. -/
theorem Laid.declares {source : Json} {entries : List (Address × ResourceDeclaration)}
    (h : Laid "" none 0 (nested source) entries) {a : Address} {decl : ResourceDeclaration} (he : (a, decl) ∈ entries) :
    ∃ w, declared? a source = some w ∧ Declares source a w decl := by
  induction hn : a.length generalizing a decl with
  | zero =>
    obtain ⟨w, hw, -⟩ := h.own _ he
    exact absurd (List.eq_nil_of_length_eq_zero hn) (declaredIn_nested.mp hw).1
  | succ n ih =>
    obtain ⟨w, hw, hread⟩ := h.own _ he
    obtain ⟨hne, hw⟩ := declaredIn_nested.mp hw
    refine ⟨w, hw, ?_⟩
    rcases hread with ⟨hone, hread⟩ | ⟨parent, hp, hread⟩
    · obtain ⟨i, rfl⟩ := List.length_eq_one_iff.mp hone
      exact .outer (declared?_singleton i source ▸ hw) hread
    · -- the value at the last position stands in that of the declaration before
      obtain ⟨v, hv, hdeclares⟩ := ih hp (by rw [List.length_dropLast, hn, Nat.add_sub_cancel])
      have ha := List.dropLast_append_getLast hne
      generalize a.dropLast = b at *
      generalize a.getLast hne = i at *
      subst ha
      rw [declared?_append, hv, Option.bind_some, declared?_singleton] at hw
      exact .inner hdeclares hw hread

theorem exists_of_readKeyed {members : List (String × Json)} {n : Nat} {ds : List ResourceDeclaration}
    (h : readKeyed n members = .ok ds) {decl : ResourceDeclaration} (hd : decl ∈ ds) : ∃ i name w read,
      members[i]? = some (name, w) ∧ readResource ("/resources/" ++ name) (n + i) none w = .ok read ∧
        decl = { read with symbolicName := some name } := by
  induction members generalizing n ds with
  | nil =>
    cases h
    cases hd
  | cons e members ih =>
    unfold readKeyed at h
    obtain ⟨read, hread, h⟩ := bind_eq_ok.mp h
    obtain ⟨others, ho, h⟩ := bind_eq_ok.mp h
    cases h
    rcases List.mem_cons.mp hd with rfl | hd
    · exact ⟨0, e.1, e.2, read, rfl, hread, rfl⟩
    · obtain ⟨i, name, w, read', hi, hr, rfl⟩ := ih ho hd
      exact ⟨i + 1, name, w, read', hi, by rw [Nat.add_right_comm] at hr; exact hr, rfl⟩

/-- Every declaration of a template is declared by an object of the template. -/
theorem exists_declares {v : Json} {t : Template} (h : ofJson v = .ok t) {decl : ResourceDeclaration}
    (hd : decl ∈ t.resources) : ∃ a es, Declares v a (.obj es) decl := by
  have hobject {a : Address} {w : Json} (hw : Declares v a w decl) : ∃ es, w = .obj es := by
    cases hw with
    | outer _ h | inner _ _ h =>
      obtain ⟨read, hr, -⟩ := h
      obtain ⟨es, rfl, -⟩ := readResource_body hr
      exact ⟨es, rfl⟩
    | named _ _ _ hr =>
      obtain ⟨es, rfl, -⟩ := readResource_body hr
      exact ⟨es, rfl⟩
  obtain ⟨a, w, hw⟩ : ∃ a w, Declares v a w decl := by
    obtain ⟨-, es, hv, ⟨hs, -⟩ | ⟨members, hm, -, hk⟩⟩ := ofJson_reads h
    · obtain ⟨entries, hentries, hlaid⟩ := ofJson_laid h hs
      rw [hentries] at hd
      obtain ⟨⟨a, decl⟩, he, rfl⟩ := List.mem_map.mp hd
      obtain ⟨w, -, hw⟩ := hlaid.declares he
      exact ⟨a, w, hw⟩
    · obtain ⟨i, name, w, read, hi, hr, rfl⟩ := exists_of_readKeyed hk hd
      rw [Nat.zero_add] at hr
      exact ⟨[i], w, .named hv hm hi hr⟩
  obtain ⟨es, rfl⟩ := hobject hw
  exact ⟨a, es, hw⟩

end ResourceTemplate.Template
