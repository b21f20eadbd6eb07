import ResourceTemplate.Catalog.Arithmetic
import ResourceTemplate.Catalog.Collections
import ResourceTemplate.Proofs.Discipline

namespace ResourceTemplate

namespace Args

@[simp] theorem definite_expectCount (function : String) (actual least : Nat) (most : Option Nat) :
    Definite (expectCount function actual least most) := by
  unfold expectCount
  split <;> simp

@[simp] theorem definite_expect (a : Args) (least : Nat) (most : Option Nat) :
    Definite (a.expect least most) := definite_expectCount _ _ _ _

@[simp] theorem definite_exactly (a : Args) (n : Nat) : Definite (a.exactly n) :=
  definite_expect _ _ _

@[simp] theorem definite_value (a : Args) (i : Nat) : Definite (a.value i) := by
  unfold value
  split <;> simp

variable {α : Type}

/-- What is made of an argument fails definitely if it does so for every value. -/
theorem definite_of_value (a : Args) (i : Nat) {f : Json → Except ExprError α}
    (hf : ∀ v, Definite (f v)) : Definite (a.value i >>= f) := (a.definite_value i).bind hf

/-- What is made of a number of arguments fails definitely if it does so for any number. -/
theorem definite_of_exactly (a : Args) (n : Nat) {f : Unit → Except ExprError α}
    (hf : ∀ u, Definite (f u)) : Definite (a.exactly n >>= f) := (a.definite_exactly n).bind hf

@[simp] theorem definite_string (a : Args) (i : Nat) : Definite (a.string i) :=
  a.definite_of_value i fun v => by cases v <;> simp [mismatch]

@[simp] theorem definite_int (a : Args) (i : Nat) : Definite (a.int i) :=
  a.definite_of_value i fun v => by
    cases v with
    | num n => cases h : n.toInt64? <;> simp [h]
    | _ => simp [mismatch]

@[simp] theorem definite_bool (a : Args) (i : Nat) : Definite (a.bool i) :=
  a.definite_of_value i fun v => by cases v <;> simp [mismatch]

@[simp] theorem definite_array (a : Args) (i : Nat) : Definite (a.array i) :=
  a.definite_of_value i fun v => by cases v <;> simp [mismatch]

@[simp] theorem definite_object (a : Args) (i : Nat) : Definite (a.object i) :=
  a.definite_of_value i fun v => by cases v <;> simp [mismatch]

@[simp] theorem definite_strings (a : Args) : Definite a.strings := .mapM a.definite_string _

end Args

namespace Catalog

namespace Logic

theorem definite_bool (a : Args) : Definite (bool a) := by
  refine a.definite_of_exactly 1 fun _ => a.definite_of_value 0 fun v => ?_
  cases v with
  | str s => exact .ite (.pure _) (.ite (.pure _) (by simp))
  | _ => simp

theorem definite_not (a : Args) : Definite (not a) :=
  a.definite_of_exactly 1 fun _ => (a.definite_bool 0).bind fun _ => .pure _

theorem definite_constant (v : Json) (a : Args) : Definite (constant v a) :=
  a.definite_of_exactly 0 fun _ => .pure _

theorem definite_equals (a : Args) : Definite (equals a) :=
  a.definite_of_exactly 2 fun _ => a.definite_of_value 0 fun _ => a.definite_of_value 1 fun _ =>
    .pure _

theorem definite_ordered (holds : Ordering → Bool) (a : Args) : Definite (ordered holds a) := by
  refine .bind (r := order a) ?_ fun _ => .pure _
  refine a.definite_of_exactly 2 fun _ => a.definite_of_value 0 fun v =>
    a.definite_of_value 1 fun w => ?_
  cases v <;> cases w <;> simp

theorem definite_functions : ∀ f ∈ functions, ∀ a, Definite (f.2 a) := by
  simp only [functions, List.forall_mem_cons]
  exact ⟨definite_bool, definite_not, definite_constant _, definite_constant _,
    definite_constant _, definite_equals, definite_ordered _, definite_ordered _,
    definite_ordered _, definite_ordered _, by simp⟩

end Logic

namespace Arithmetic

theorem definite_binary (op : Int → Int → Int) (a : Args) : Definite (binary op a) := by
  refine a.definite_of_exactly 2 fun _ => (a.definite_int 0).bind fun x =>
    (a.definite_int 1).bind fun y => ?_
  cases Number.inRange? (op x y) <;> simp

theorem definite_dividing (name : String) (op : Int → Int → Int) (a : Args) :
    Definite (dividing name op a) := by
  refine a.definite_of_exactly 2 fun _ => (a.definite_int 1).bind fun y =>
    .ite (.bind (by simp) fun _ => ?_) ?_
  all_goals
    refine (a.definite_int 0).bind fun x => (a.definite_int 1).bind fun y => ?_
    cases Number.inRange? (Int.tdiv x y) <;> simp

theorem definite_int (a : Args) : Definite (int a) := by
  refine a.definite_of_exactly 1 fun _ => a.definite_of_value 0 fun v => ?_
  cases v with
  | num n =>
    cases hn : n.toInt64? with
    | some x => simp [hn]
    | none => cases hb : ofBinary64? n.toBinary64 <;> simp [hn, hb]
  | str s =>
    dsimp only
    split <;> simp
  | _ => simp

theorem definite_float (a : Args) : Definite (float a) := by
  refine a.definite_of_exactly 1 fun _ => a.definite_of_value 0 fun v => ?_
  cases v with
  | num n => simp
  | str s => cases hb : Binary64.ofText? (Blank.trim s).toList <;> simp [hb]
  | _ => exact .bind (by simp) fun read => by cases read <;> simp

theorem definite_numbers (a : Args) : Definite (numbers a) := by
  refine (a.definite_expect 1 none).bind fun _ => .mapM (fun v => ?_) _
  cases v with
  | num n => cases h : n.toInt64? <;> simp [h]
  | _ => simp

theorem definite_extreme (name : String) (pick : Int → Int → Int) (a : Args) :
    Definite (extreme name pick a) :=
  (definite_numbers a).bind fun xs => by cases xs <;> simp

theorem definite_range (a : Args) : Definite (range a) := by
  refine a.definite_of_exactly 2 fun _ => (a.definite_int 0).bind fun start =>
    (a.definite_int 1).bind fun count => .ite (.bind (by simp) fun _ => ?_) ?_
  all_goals cases Number.inRange? (start + count) <;> simp

theorem definite_functions : ∀ f ∈ functions, ∀ a, Definite (f.2 a) := by
  simp only [functions, List.forall_mem_cons]
  exact ⟨definite_binary _, definite_binary _, definite_binary _, definite_dividing _ _,
    definite_dividing _ _, definite_int, definite_float, definite_extreme _ _,
    definite_extreme _ _, definite_range, by simp⟩

end Arithmetic

namespace Collections

theorem definite_array (a : Args) : Definite (array a) :=
  a.definite_of_exactly 1 fun _ => a.definite_of_value 0 fun v => by cases v <;> simp

theorem definite_coalesce (a : Args) : Definite (coalesce a) :=
  (a.definite_expect 1 none).bind fun _ => .pure _

theorem definite_concatArrays (i : Nat) (vs : List Json) : Definite (concatArrays i vs) := by
  induction vs generalizing i with
  | nil => exact .ok _
  | cons v vs ih =>
    cases v with
    | arr xs => exact (ih _).map _
    | null => exact ih _
    | _ => simp [concatArrays]

theorem definite_concatTexts (i : Nat) (vs : List Json) : Definite (concatTexts i vs) := by
  induction vs generalizing i with
  | nil => exact .ok _
  | cons v vs ih =>
    cases v with
    | arr xs => simp [concatTexts]
    | obj es => simp [concatTexts]
    | _ => exact (ih _).map _

theorem definite_concat (a : Args) : Definite (concat a) := by
  refine (a.definite_expect 1 none).bind fun _ => ?_
  split
  · exact (definite_concatArrays 0 _).bind fun _ => .pure _
  · exact (definite_concatTexts 0 _).bind fun _ => .pure _

theorem definite_contains (a : Args) : Definite (contains a) :=
  a.definite_of_exactly 2 fun _ => a.definite_of_value 1 fun _ => a.definite_of_value 0 fun v => by
    cases v <;> simp

theorem definite_createArray (a : Args) : Definite (createArray a) := .ok _

theorem definite_pairs (a : Args) (acc : Entries Json) (i : Nat) (vs : List Json) :
    Definite (pairs a acc i vs) := by
  fun_induction pairs a acc i vs with
  | case1 acc i k v rest ih => exact ih
  | case2 acc i v w rest hv => simp [Args.mismatch]
  | case3 => exact .ok _

theorem definite_createObject (a : Args) : Definite (createObject a) :=
  .ite (.bind (by simp) fun _ => (definite_pairs a [] 0 _).bind fun _ => .pure _)
    ((definite_pairs a [] 0 _).bind fun _ => .pure _)

theorem definite_empty (a : Args) : Definite (empty a) :=
  a.definite_of_exactly 1 fun _ => a.definite_of_value 0 fun _ => .pure _

theorem definite_first (a : Args) : Definite (first a) :=
  a.definite_of_exactly 1 fun _ => a.definite_of_value 0 fun v => by cases v <;> simp

theorem definite_last (a : Args) : Definite (last a) :=
  a.definite_of_exactly 1 fun _ => a.definite_of_value 0 fun v => by cases v <;> simp

theorem definite_flatten (a : Args) : Definite (flatten a) := by
  refine a.definite_of_exactly 1 fun _ => (a.definite_array 0).bind fun xs =>
    (Fails.mapM (fun v => ?_) xs).bind fun _ => .pure _
  cases v <;> simp

theorem definite_found (found : Option Nat) : Definite (match found with
    | some i => (return .int i : Except ExprError Json)
    | none => return .int (-1)) := by
  cases found <;> simp

theorem definite_position (fromEnd : Bool) (a : Args) : Definite (position fromEnd a) := by
  refine a.definite_of_exactly 2 fun _ => a.definite_of_value 0 fun v => ?_
  cases v with
  | str s => exact (a.definite_string 1).bind fun _ => definite_found _
  | arr xs => exact a.definite_of_value 1 fun _ => definite_found _
  | _ => exact .bind (by simp [Args.mismatch]) definite_found

theorem definite_inAllArrays (a : Args) (item : Json) (i : Nat) (vs : List Json) :
    Definite (inAllArrays a item i vs) := by
  induction vs generalizing i with
  | nil => exact .ok _
  | cons v vs ih =>
    cases v with
    | arr xs => exact .ite (ih _) (.ok _)
    | _ => simp [inAllArrays, Args.mismatch]

theorem definite_inAllObjects (a : Args) (key : String) (value : Json) (i : Nat) (vs : List Json) :
    Definite (inAllObjects a key value i vs) := by
  induction vs generalizing i with
  | nil => exact .ok _
  | cons v vs ih =>
    cases v with
    | obj es =>
      unfold inAllObjects
      split
      · exact .ite (ih _) (.ok _)
      · exact .ok _
    | _ => simp [inAllObjects, Args.mismatch]

theorem definite_intersectArrays (a : Args) (rest acc xs : List Json) :
    Definite (intersectArrays a rest acc xs) := by
  induction xs generalizing acc with
  | nil => exact .ok _
  | cons x xs ih => exact (definite_inAllArrays a x 1 rest).bind fun _ => ih _

theorem definite_intersectObjects (a : Args) (rest : List Json) (acc : Entries Json)
    (es : List (String × Json)) : Definite (intersectObjects a rest acc es) := by
  induction es generalizing acc with
  | nil => exact .ok _
  | cons e es ih => exact (definite_inAllObjects a e.1 e.2 1 rest).bind fun _ => ih _

theorem definite_intersection (a : Args) : Definite (intersection a) := by
  refine (a.definite_expect 2 none).bind fun _ => a.definite_of_value 0 fun v => ?_
  cases v with
  | arr xs => exact (definite_intersectArrays a _ [] xs).bind fun _ => .pure _
  | obj es => exact (definite_intersectObjects a _ [] es).bind fun _ => .pure _
  | _ => simp

theorem definite_uniteArrays (a : Args) (acc : List Json) (i : Nat) (vs : List Json) :
    Definite (uniteArrays a acc i vs) := by
  induction vs generalizing acc i with
  | nil => exact .ok _
  | cons v vs ih =>
    cases v with
    | arr xs => exact ih _ _
    | _ => simp [uniteArrays, Args.mismatch]

theorem definite_uniteObjects (a : Args) (acc : Entries Json) (i : Nat) (vs : List Json) :
    Definite (uniteObjects a acc i vs) := by
  induction vs generalizing acc i with
  | nil => exact .ok _
  | cons v vs ih =>
    cases v with
    | obj es => exact ih _ _
    | _ => simp [uniteObjects, Args.mismatch]

theorem definite_union (a : Args) : Definite (union a) := by
  refine (a.definite_expect 2 none).bind fun _ => a.definite_of_value 0 fun v => ?_
  cases v with
  | arr xs => exact (definite_uniteArrays a [] 0 _).bind fun _ => .pure _
  | obj es => exact (definite_uniteObjects a [] 0 _).bind fun _ => .pure _
  | _ => simp

theorem definite_items (a : Args) : Definite (items a) :=
  a.definite_of_exactly 1 fun _ => (a.definite_object 0).bind fun _ => .pure _

theorem definite_json (a : Args) : Definite (json a) :=
  a.definite_of_exactly 1 fun _ => (a.definite_string 0).bind fun s => by
    cases hp : Json.parse? s <;> simp

theorem definite_length (a : Args) : Definite (length a) :=
  a.definite_of_exactly 1 fun _ => a.definite_of_value 0 fun v => by cases v <;> simp

theorem definite_objectKeys (a : Args) : Definite (objectKeys a) :=
  a.definite_of_exactly 1 fun _ => (a.definite_object 0).bind fun _ => .pure _

theorem definite_skip (a : Args) : Definite (skip a) :=
  a.definite_of_exactly 2 fun _ => ((a.definite_int 1).map _).bind fun _ =>
    a.definite_of_value 0 fun v => by cases v <;> simp

theorem definite_take (a : Args) : Definite (take a) :=
  a.definite_of_exactly 2 fun _ => ((a.definite_int 1).map _).bind fun _ =>
    a.definite_of_value 0 fun v => by cases v <;> simp

theorem definite_functions : ∀ f ∈ functions, ∀ a, Definite (f.2 a) := by
  simp only [functions, List.forall_mem_cons]
  exact ⟨definite_array, definite_coalesce, definite_concat, definite_contains, definite_createArray,
    definite_createObject, definite_empty, definite_first, definite_flatten, definite_position _,
    definite_intersection, definite_items, definite_json, definite_last, definite_position _,
    definite_length, definite_objectKeys, definite_skip, definite_take, definite_union, by simp⟩

end Collections
end Catalog
end ResourceTemplate
