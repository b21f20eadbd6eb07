import ResourceTemplate.Expr.Eval

namespace ResourceTemplate.Expr

def text? : Expr → Option String
  | .str s => some s
  | _ => none

theorem text?_eq_some {e : Expr} {s : String} : text? e = some s ↔ e = .str s := by
  cases e <;> simp [text?]

def parts? : Expr → Option (List Expr)
  | .call none name args _ => if Name.same name "lambda" then some args else none
  | _ => none

theorem lambdaParts_eq (function : String) (i : Nat) (e : Expr) :
    lambdaParts function i e = match parts? e with
      | some parts => .ok parts
      | none => lambdaParts.refuse function i := by
  cases e with
  | call ns name args span =>
    cases ns with
    | none =>
      simp only [lambdaParts, parts?]
      split <;> rfl
    | some ns => rfl
  | _ => rfl

/-- The names of the parameters of a lambda, as far as they are literals. -/
def parameters (parts : List Expr) : List String := parts.dropLast.filterMap text?

def allNamed (parts : List Expr) : Bool := parts.dropLast.all fun e => (text? e).isSome

section
variable {parts parts' : List Expr} {values : List Json}

theorem bind_eq (hlength : parts.length = values.length + 1) :
    bind parts values = if allNamed parts then .ok ((parameters parts).zip values)
      else .error (.invalidArgument "lambda" "parameter names must be string literals") := by
  unfold allNamed parameters
  induction values generalizing parts with
  | nil =>
    obtain ⟨e, rfl⟩ := List.length_eq_one_iff.mp hlength
    cases e <;> rfl
  | cons v values ih =>
    match parts, hlength with
    | e :: e' :: parts, hlength =>
      rw [List.dropLast_cons_cons, List.all_cons]
      cases e with
      | str name =>
        change (bind (e' :: parts) values).map ((name, v) :: ·) = _
        rw [ih (Nat.succ.inj hlength), apply_ite (Except.map _)]
        rfl
      | _ => rfl

/-- What a lambda that has as many parameters as there are values makes of them. -/
theorem checkLambda_eq (hlength : parts.length = values.length + 1) :
    checkLambda parts values = if allNamed parts then .ok ((parameters parts).zip values)
      else .error (.invalidArgument "lambda" "parameter names must be string literals") := by
  have hparts : parts.isEmpty = false := by
    cases parts with
    | nil => cases hlength
    | cons => rfl
  rw [← bind_eq hlength, checkLambda, hparts, if_neg Bool.false_ne_true, if_neg (fun h => h hlength)]

theorem checkLambda_of_length_ne (hlength : parts.length ≠ values.length + 1) :
    ∃ e, checkLambda parts values = .error e := by
  unfold checkLambda
  rw [if_pos hlength]
  split
  · exact ⟨_, rfl⟩
  · exact ⟨_, rfl⟩

/-- Lambdas with as many parameters refuse the same numbers of values. -/
theorem checkLambda_of_length_eq (hparts : parts.length = parts'.length) (hlength : parts.length ≠ values.length + 1) :
    checkLambda parts values = checkLambda parts' values := by
  have hempty : parts.isEmpty = parts'.isEmpty := by
    rw [Bool.eq_iff_iff, List.isEmpty_iff_length_eq_zero, List.isEmpty_iff_length_eq_zero, hparts]
  unfold checkLambda
  rw [if_pos hlength, if_pos (fun h => hlength (hparts.trans h)), hempty, hparts]

theorem parameters_congr (h : parts.map text? = parts'.map text?) : parameters parts = parameters parts' := by
  have htexts (es : List Expr) : parameters es = (es.map text?).dropLast.filterMap id := by
    rw [← List.map_dropLast, List.filterMap_map]
    rfl
  rw [htexts, htexts, h]

theorem allNamed_congr (h : parts.map text? = parts'.map text?) : allNamed parts = allNamed parts' := by
  have htexts (es : List Expr) : allNamed es = (es.map text?).dropLast.all Option.isSome := by
    rw [← List.map_dropLast, List.all_map]
    rfl
  rw [htexts, htexts, h]

theorem checkLambda_congr (h : parts.map text? = parts'.map text?) (values : List Json) :
    checkLambda parts values = checkLambda parts' values := by
  have hparts : parts.length = parts'.length := by simpa using congrArg List.length h
  by_cases hlength : parts.length = values.length + 1
  · rw [checkLambda_eq hlength, checkLambda_eq (hparts.symm.trans hlength), parameters_congr h, allNamed_congr h]
  · exact checkLambda_of_length_eq hparts hlength

theorem zip_insert {before : List String} (after : List String) {values : List Json}
    (hlength : before.length < values.length) :
    ∃ (bound : Bindings) (v : Json) (rest : Bindings), bound.map Prod.fst = before ∧
      ∀ x, (before ++ x :: after).zip values = bound ++ (x, v) :: rest := by
  induction before generalizing values with
  | nil =>
    match values, hlength with
    | v :: values, _ => exact ⟨[], v, after.zip values, rfl, fun _ => rfl⟩
  | cons b before ih =>
    match values, hlength with
    | w :: values, hlength =>
      obtain ⟨bound, v, rest, hbound, hzip⟩ := ih (Nat.lt_of_succ_lt_succ hlength)
      exact ⟨(b, w) :: bound, v, rest, congrArg (b :: ·) hbound, fun x => congrArg ((b, w) :: ·) (hzip x)⟩

theorem names_of_checkLambda {bindings : Bindings} (h : checkLambda parts values = .ok bindings) :
    bindings.map Prod.fst = parameters parts := by
  by_cases hlength : parts.length = values.length + 1
  · rw [checkLambda_eq hlength] at h
    split at h
    · rename_i hnamed
      obtain rfl := Except.ok.inj h
      have hnumber : (parameters parts).length = parts.dropLast.length :=
        List.filterMap_length_eq_length.mpr (List.all_eq_true.mp hnamed)
      have hvalues : (parameters parts).length ≤ values.length := by
        rw [hnumber, List.length_dropLast, hlength]
        exact Nat.le_refl _
      exact List.map_fst_zip hvalues
    · cases h
  · obtain ⟨e, he⟩ := checkLambda_of_length_ne hlength
    cases he.symm.trans h

end
end ResourceTemplate.Expr
