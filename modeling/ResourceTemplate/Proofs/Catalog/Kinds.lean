import ResourceTemplate.Proofs.Catalog.Collections

namespace ResourceTemplate.Catalog.Collections

def sameKind : Json → Json → Bool
  | .arr _, .arr _ => true
  | .obj _, .obj _ => true
  | _, _ => false

/-- The result is a type error where the condition holds, and a value where it does not. -/
structure MismatchesIf {α : Type} (result : Except ExprError α) (condition : Prop) : Prop where
  refused : condition → ∃ context expected found, result = .error (.typeMismatch context expected found)
  given : ¬ condition → ∃ v, result = .ok v

namespace MismatchesIf

variable {α β : Type} {p q : Prop}

theorem ok (v : α) : MismatchesIf (.ok v) False := ⟨False.elim, fun _ => ⟨v, rfl⟩⟩

theorem mismatch (context expected : String) (found : Json) :
    MismatchesIf (.error (.mismatch context expected found) : Except ExprError α) True :=
  ⟨fun _ => ⟨_, _, _, rfl⟩, fun h => absurd trivial h⟩

theorem bind {m : Except ExprError α} {f : α → Except ExprError β} (h : MismatchesIf m p)
    (hf : ∀ a, MismatchesIf (f a) q) : MismatchesIf (m >>= f) (p ∨ q) := by
  by_cases hp : p
  · obtain ⟨context, expected, found, rfl⟩ := h.refused hp
    exact ⟨fun _ => ⟨_, _, _, rfl⟩, fun hnot => absurd (.inl hp) hnot⟩
  · obtain ⟨a, rfl⟩ := h.given hp
    exact ⟨fun hor => (hf a).refused (hor.resolve_left hp), fun hnot => (hf a).given fun hq => hnot (.inr hq)⟩

theorem congr {m : Except ExprError α} (h : MismatchesIf m p) (hpq : p ↔ q) : MismatchesIf m q :=
  ⟨fun hq => h.refused (hpq.mpr hq), fun hq => h.given fun hp => hq (hpq.mp hp)⟩

theorem map {m : Except ExprError α} (h : MismatchesIf m p) (f : α → β) :
    MismatchesIf (m >>= fun a => pure (f a)) p :=
  (h.bind fun a => ok (f a)).congr (by rw [or_false])

end MismatchesIf

section

variable (a : Args)

theorem uniteArrays_mismatches (xs acc : List Json) (i : Nat) (values : List Json) :
    MismatchesIf (uniteArrays a acc i values) (∃ v ∈ values, sameKind (.arr xs) v = false) := by
  induction values generalizing acc i with
  | nil => exact (MismatchesIf.ok acc).congr (by simp)
  | cons v values ih =>
    cases v with
    | arr ys => exact (ih (addItems acc ys) (i + 1)).congr (by simp [sameKind])
    | _ => exact (MismatchesIf.mismatch _ "array" _).congr (by simp [sameKind])

theorem uniteObjects_mismatches (es acc : Entries Json) (i : Nat) (values : List Json) :
    MismatchesIf (uniteObjects a acc i values) (∃ v ∈ values, sameKind (.obj es) v = false) := by
  induction values generalizing acc i with
  | nil => exact (MismatchesIf.ok acc).congr (by simp)
  | cons v values ih =>
    cases v with
    | obj fs => exact (ih (mergeEntries acc fs) (i + 1)).congr (by simp [sameKind])
    | _ => exact (MismatchesIf.mismatch _ "object" _).congr (by simp [sameKind])

end

def hasItem (x : Json) : Json → Bool
  | .arr ys => x.elemAlike ys
  | _ => false

def hasEntry (key : String) (value : Json) : Json → Bool
  | .obj fs => (Entries.getNamed? fs key).any fun w => w.alike value
  | _ => false

/-- What the later arguments are asked, for each item or entry of the first. -/
def questions : Json → List (Json → Bool)
  | .arr xs => xs.map hasItem
  | .obj es => es.map fun e => hasEntry e.1 e.2
  | _ => []

/-- Whether a value of another kind than the first is asked: all before it have answered yes. -/
def Asked (first : Json) (question : Json → Bool) (values : List Json) : Prop :=
  ∃ before v after, values = before ++ v :: after ∧ sameKind first v = false ∧ ∀ w ∈ before, question w = true

section

variable {first v : Json} {question : Json → Bool} {values : List Json}

theorem not_asked_nil : ¬ Asked first question [] := by
  rintro ⟨before, v, after, h, -⟩
  simp at h

theorem asked_cons_other (h : sameKind first v = false) : Asked first question (v :: values) :=
  ⟨[], v, values, rfl, h, List.forall_mem_nil _⟩

theorem asked_cons_same (h : sameKind first v = true) :
    Asked first question (v :: values) ↔ question v = true ∧ Asked first question values := by
  constructor
  · rintro ⟨before, w, after, heq, hother, hyes⟩
    cases before with
    | nil =>
      obtain ⟨rfl, rfl⟩ := List.cons.inj heq
      rw [h] at hother
      cases hother
    | cons u before =>
      obtain ⟨rfl, rfl⟩ := List.cons.inj heq
      obtain ⟨hu, hbefore⟩ := List.forall_mem_cons.mp hyes
      exact ⟨hu, before, w, after, rfl, hother, hbefore⟩
  · rintro ⟨hv, before, w, after, rfl, hother, hyes⟩
    exact ⟨v :: before, w, after, rfl, hother, List.forall_mem_cons.mpr ⟨hv, hyes⟩⟩

end

section

variable (a : Args)

theorem inAllArrays_mismatches (x : Json) (xs : List Json) (i : Nat) (values : List Json) :
    MismatchesIf (inAllArrays a x i values) (Asked (.arr xs) (hasItem x) values) := by
  induction values generalizing i with
  | nil => exact (MismatchesIf.ok true).congr (iff_of_false id not_asked_nil)
  | cons v values ih =>
    cases v with
    | arr ys =>
      rw [inAllArrays, asked_cons_same rfl, hasItem]
      split
      · rename_i hx
        exact (ih (i + 1)).congr (and_iff_right hx).symm
      · rename_i hx
        exact (MismatchesIf.ok false).congr (iff_of_false id fun h => hx h.1)
    | _ => exact (MismatchesIf.mismatch _ "array" _).congr (iff_of_true trivial (asked_cons_other rfl))

theorem inAllObjects_mismatches (key : String) (value : Json) (es : Entries Json) (i : Nat) (values : List Json) :
    MismatchesIf (inAllObjects a key value i values) (Asked (.obj es) (hasEntry key value) values) := by
  induction values generalizing i with
  | nil => exact (MismatchesIf.ok true).congr (iff_of_false id not_asked_nil)
  | cons v values ih =>
    cases v with
    | obj fs =>
      rw [inAllObjects, asked_cons_same rfl, hasEntry]
      cases Entries.getNamed? fs key with
      | none => exact (MismatchesIf.ok false).congr (iff_of_false id fun h => Bool.false_ne_true h.1)
      | some w =>
        dsimp only [Option.any_some]
        split
        · rename_i hw
          exact (ih (i + 1)).congr (and_iff_right hw).symm
        · rename_i hw
          exact (MismatchesIf.ok false).congr (iff_of_false id fun h => hw h.1)
    | _ => exact (MismatchesIf.mismatch _ "object" _).congr (iff_of_true trivial (asked_cons_other rfl))

theorem intersectArrays_mismatches (all : List Json) (values acc xs : List Json) :
    MismatchesIf (intersectArrays a values acc xs)
      (∃ question ∈ questions (.arr xs), Asked (.arr all) question values) := by
  induction xs generalizing acc with
  | nil => exact (MismatchesIf.ok acc).congr (by simp [questions])
  | cons x xs ih =>
    refine ((inAllArrays_mismatches a x all 1 values).bind fun everywhere => ih _).congr ?_
    simp only [questions, List.map_cons, List.exists_mem_cons_iff]

theorem intersectObjects_mismatches (all : Entries Json) (values : List Json) (acc es : Entries Json) :
    MismatchesIf (intersectObjects a values acc es)
      (∃ question ∈ questions (.obj es), Asked (.obj all) question values) := by
  induction es generalizing acc with
  | nil => exact (MismatchesIf.ok acc).congr (by simp [questions])
  | cons e es ih =>
    refine ((inAllObjects_mismatches a e.1 e.2 all 1 values).bind fun everywhere => ih _).congr ?_
    simp only [questions, List.map_cons, List.exists_mem_cons_iff]

end

theorem union_mismatches (function : String) (first second : Json) (rest : List Json) :
    MismatchesIf (union ⟨function, first :: second :: rest⟩)
      (∃ v ∈ first :: second :: rest, sameKind first v = false) := by
  unfold union
  rw [expect_two function (by simp)]
  cases first with
  | arr xs => exact (uniteArrays_mismatches _ xs [] 0 _).map _
  | obj es => exact (uniteObjects_mismatches _ es [] 0 _).map _
  | _ => exact (MismatchesIf.mismatch _ _ _).congr (by simp [sameKind])

theorem intersection_mismatches (function : String) (first second : Json) (rest : List Json) :
    MismatchesIf (intersection ⟨function, first :: second :: rest⟩)
      (sameKind first first = false ∨ ∃ question ∈ questions first, Asked first question (second :: rest)) := by
  unfold intersection
  rw [expect_two function (by simp)]
  cases first with
  | arr xs => exact ((intersectArrays_mismatches _ xs (second :: rest) [] xs).map _).congr (by simp [sameKind])
  | obj es => exact ((intersectObjects_mismatches _ es (second :: rest) [] es).map _).congr (by simp [sameKind])
  | _ => exact (MismatchesIf.mismatch _ _ _).congr (by simp [sameKind])

/-- What unions and intersections make of arguments of different kinds. A union of two or more arguments is a type error
exactly if the first is neither an array nor an object, or some other is not of its kind. So is an intersection if the
first is neither; else it depends on the items: it is a type error exactly if, for some item or entry of the first, the
arguments before one of another kind all hold it. -/
theorem kinds_checked (function : String) (first second : Json) (rest : List Json) :
    MismatchesIf (union ⟨function, first :: second :: rest⟩)
      (∃ v ∈ first :: second :: rest, sameKind first v = false) ∧
    MismatchesIf (intersection ⟨function, first :: second :: rest⟩)
      (sameKind first first = false ∨ ∃ question ∈ questions first, ∃ before v after,
        second :: rest = before ++ v :: after ∧ sameKind first v = false ∧ ∀ w ∈ before, question w = true) :=
  ⟨union_mismatches function first second rest, intersection_mismatches function first second rest⟩

/-- An argument that is not an array is passed over when the first is empty, and noticed or not by what the arrays
before it hold. -/
theorem kinds_overlooked :
    (intersection ⟨"intersection", [.arr [], .int 1]⟩ = .ok (.arr []) ∧
      union ⟨"union", [.arr [], .int 1]⟩ = .error (.typeMismatch "argument 2 of 'union'" "array" "int")) ∧
    intersection ⟨"intersection", [.arr [.str "a"], .arr [.str "b"], .int 5]⟩ = .ok (.arr []) ∧
    intersection ⟨"intersection", [.arr [.str "a"], .arr [.str "a"], .int 5]⟩ =
      .error (.typeMismatch "argument 3 of 'intersection'" "array" "int") :=
  ⟨⟨rfl, rfl⟩, rfl, rfl⟩

end ResourceTemplate.Catalog.Collections
