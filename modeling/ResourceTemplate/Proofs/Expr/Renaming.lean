import ResourceTemplate.Expr.Standalone
import ResourceTemplate.Proofs.Expr.Congruence
import ResourceTemplate.Proofs.Expr.Spans

namespace ResourceTemplate.Expr

/-! ### Values of variables -/

namespace Scopes

variable {bindings : Bindings} {scopes scopes' : Scopes} {y : String}

theorem find?_cons (bindings : Bindings) (scopes : Scopes) (y : String) :
    find? (bindings :: scopes) y = ((bindings.find? fun b => Name.same b.1 y).map Prod.snd).or (find? scopes y) := by
  rw [find?, find?, List.flatten_cons, List.find?_append, Option.map_or]

theorem find?_insert (before after : Bindings) (b : String × Json) (scopes : Scopes) (y : String) :
    find? ((before ++ b :: after) :: scopes) y = find? (before :: [b] :: after :: scopes) y := by
  simp [find?]

/-- A lambda without a parameter of a name leaves its value alone. -/
theorem find?_of_unbound (h : (bindings.map Prod.fst).any (Name.same · y) = false) :
    find? (bindings :: scopes) y = find? scopes y := by
  have hnone : (bindings.find? fun b => Name.same b.1 y) = none := by
    rw [List.find?_eq_none]
    intro b hb hsame
    exact Bool.false_ne_true (h.symm.trans (List.any_eq_true.mpr ⟨b.1, List.mem_map_of_mem hb, hsame⟩))
  rw [find?_cons, hnone]
  rfl

/-- A lambda with a parameter of a name hides what the name means around it. -/
theorem find?_of_bound (h : (bindings.map Prod.fst).any (Name.same · y) = true) :
    find? (bindings :: scopes) y = find? (bindings :: scopes') y := by
  rw [find?_cons, find?_cons]
  cases hfind : bindings.find? fun b => Name.same b.1 y with
  | some b => rfl
  | none =>
    obtain ⟨name, hname, hsame⟩ := List.any_eq_true.mp h
    obtain ⟨b, hb, rfl⟩ := List.mem_map.mp hname
    exact absurd hsame (List.find?_eq_none.mp hfind b hb)

end Scopes

/-- Whether a name in a body means the parameter `x`, if the lambdas between them have parameters of the names
`inner`. -/
def means (x : String) (inner : List String) (y : String) : Bool :=
  Name.same x y && !inner.any (Name.same · y)

/-- The lambdas around a body whose parameter `x` is renamed to `z`, before and after. -/
structure Renames (x z : String) (inner : List String) (scopes scopes' : Scopes) : Prop where
  renamed : ∀ y, means x inner y = true → ∃ v, scopes.find? y = some v ∧ scopes'.find? z = some v
  other : ∀ y, means x inner y = false → Name.same y z = false → scopes.find? y = scopes'.find? y

namespace Renames

variable {x z : String} {inner : List String} {scopes scopes' : Scopes}

theorem single (x z : String) (v : Json) (scopes : Scopes) :
    Renames x z [] ([(x, v)] :: scopes) ([(z, v)] :: scopes) where
  renamed y hy := by
    have hx : Name.same x y = true := by simpa [means] using hy
    refine ⟨v, ?_, ?_⟩
    · simp [Scopes.find?_cons, hx]
    · simp [Scopes.find?_cons]
  other y hy hz := by
    have hx : Name.same x y = false := by simpa [means] using hy
    rw [Name.same_comm] at hz
    rw [Scopes.find?_of_unbound (by simpa using hx), Scopes.find?_of_unbound (by simpa using hz)]

/-- An inner lambda without a parameter of the new name adds the names of its parameters. -/
theorem push (h : Renames x z inner scopes scopes') {bindings : Bindings}
    (hfresh : ∀ y ∈ bindings.map Prod.fst, Name.same y z = false) :
    Renames x z (bindings.map Prod.fst ++ inner) (bindings :: scopes) (bindings :: scopes') where
  renamed y hy := by
    simp only [means, List.any_append, Bool.not_or, Bool.and_eq_true, Bool.not_eq_true'] at hy
    obtain ⟨hx, hbindings, hinner⟩ := hy
    have hz : (bindings.map Prod.fst).any (Name.same · z) = false :=
      List.any_eq_false.mpr fun b hb => by rw [hfresh b hb]; exact Bool.false_ne_true
    rw [Scopes.find?_of_unbound hbindings, Scopes.find?_of_unbound hz]
    exact h.renamed y (by simp [means, hx, hinner])
  other y hy hz := by
    cases hbindings : (bindings.map Prod.fst).any (Name.same · y) with
    | true => exact Scopes.find?_of_bound hbindings
    | false =>
      rw [Scopes.find?_of_unbound hbindings, Scopes.find?_of_unbound hbindings]
      refine h.other y ?_ hz
      simpa only [means, List.any_append, hbindings, Bool.false_or] using hy

/-- A parameter is renamed among others, and those of them that come before it hide it. -/
theorem among {before : Bindings} (hfresh : ∀ y ∈ before.map Prod.fst, Name.same y z = false) (x : String) (v : Json)
    (after : Bindings) (scopes : Scopes) :
    Renames x z (before.map Prod.fst) ((before ++ (x, v) :: after) :: scopes)
      ((before ++ (z, v) :: after) :: scopes) := by
  have hr := (single x z v (after :: scopes)).push hfresh
  rw [List.append_nil] at hr
  refine ⟨fun y hy => ?_, fun y hy hz => ?_⟩
  · rw [Scopes.find?_insert, Scopes.find?_insert]
    exact hr.renamed y hy
  · rw [Scopes.find?_insert, Scopes.find?_insert]
    exact hr.other y hy hz

end Renames

/-! ### Names in a tree -/

def asked? : Option String → String → List Expr → Option String
  | none, name, [.str y] => if Name.same name "lambdaVariables" then some y else none
  | _, _, _ => none

def binders (ns : Option String) (name : String) (args : List Expr) : List String :=
  if ns.isNone && Name.same name "lambda" then parameters args else []

def ownNames : Expr → List String
  | .call ns name args _ => binders ns name args ++ (asked? ns name args).toList
  | _ => []

def variableNames (e : Expr) : List String := e.nodes.flatMap ownNames

def variableNamesOf (es : List Expr) : List String := (nodesOf es).flatMap ownNames

def asksLiterally : Expr → Bool
  | .call none name args _ => !Name.same name "lambdaVariables" || args.all fun arg => (text? arg).isSome
  | _ => true

section
variable {ns : Option String} {name y : String} {args args' : List Expr}

theorem asked?_eq_some :
    asked? ns name args = some y ↔ ns = none ∧ Name.same name "lambdaVariables" = true ∧ args = [.str y] := by
  unfold asked?
  split
  · split <;> simp_all
  · rename_i h
    simp only [reduceCtorEq, false_iff]
    rintro ⟨rfl, -, rfl⟩
    exact h y rfl rfl

theorem asked?_of_asksLiterally {span : Span} (h : asksLiterally (.call none name args span) = true)
    (hname : Name.same name "lambdaVariables" = true) (hlength : args.length = 1) :
    ∃ y, asked? none name args = some y := by
  obtain ⟨e, rfl⟩ := List.length_eq_one_iff.mp hlength
  obtain ⟨y, hy⟩ : ∃ y, text? e = some y := by
    simpa [asksLiterally, hname, Option.isSome_iff_exists] using h
  rw [text?_eq_some.mp hy]
  exact ⟨y, asked?_eq_some.mpr ⟨rfl, hname, rfl⟩⟩

theorem binders_congr (h : args.map text? = args'.map text?) : binders ns name args = binders ns name args' := by
  rw [binders, binders, parameters_congr h]

theorem variableNames_call (ns : Option String) (name : String) (args : List Expr) (span : Span) :
    (call ns name args span).variableNames = ownNames (.call ns name args span) ++ variableNamesOf args := by
  rw [variableNames, nodes, List.flatMap_cons, variableNamesOf]

theorem variableNames_property (target : Expr) (name : String) (span : Span) :
    (property target name span).variableNames = target.variableNames := by
  rw [variableNames, nodes, List.flatMap_cons, variableNames]
  rfl

theorem variableNames_index (target i : Expr) (span : Span) :
    (index target i span).variableNames = target.variableNames ++ i.variableNames := by
  rw [variableNames, nodes, List.flatMap_cons, List.flatMap_append, variableNames, variableNames]
  rfl

theorem variableNamesOf_cons (e : Expr) (es : List Expr) :
    variableNamesOf (e :: es) = e.variableNames ++ variableNamesOf es := by
  rw [variableNamesOf, nodesOf, List.flatMap_append, variableNames, variableNamesOf]

theorem variableNames_subset {e : Expr} {es : List Expr} (he : e ∈ es) : e.variableNames ⊆ variableNamesOf es := by
  induction es with
  | nil => cases he
  | cons e' es ih =>
    rw [variableNamesOf_cons]
    rcases List.mem_cons.mp he with rfl | he
    · exact List.subset_append_left _ _
    · exact List.subset_append_of_subset_right _ (ih he)

end

/-! ### Replacement of variables -/

mutual

/-- The tree with `f` in place of what asks for the parameter `x` in it. -/
def replace (x : String) (f : String → Span → Expr) (inner : List String) : Expr → Expr
  | .call ns name args span =>
    match asked? ns name args with
    | some y => if means x inner y then f name span else .call ns name args span
    | none => .call ns name (replaceAll x f (binders ns name args ++ inner) args) span
  | .property target name span => .property (replace x f inner target) name span
  | .index target i span => .index (replace x f inner target) (replace x f inner i) span
  | .str s => .str s
  | .int literal span => .int literal span
  | .bool b => .bool b
  | .null => .null

def replaceAll (x : String) (f : String → Span → Expr) (inner : List String) : List Expr → List Expr
  | [] => []
  | e :: es => replace x f inner e :: replaceAll x f inner es

end

def asking (z : String) (name : String) (span : Span) : Expr := .call none name [.str z] span

def nothing (_ : String) (_ : Span) : Expr := .null

section
variable {x z : String} {f : String → Span → Expr} {inner : List String}

theorem text?_replace (hf : ∀ name span, text? (f name span) = none) (e : Expr) :
    text? (replace x f inner e) = text? e := by
  cases e with
  | call ns name args span =>
    rw [replace]
    split
    · split
      · exact hf name span
      · rfl
    · rfl
  | _ => rw [replace] <;> rfl

theorem texts_replaceAll (hf : ∀ name span, text? (f name span) = none) (es : List Expr) :
    (replaceAll x f inner es).map text? = es.map text? := by
  induction es with
  | nil => rfl
  | cons e es ih => rw [replaceAll, List.map_cons, List.map_cons, text?_replace hf, ih]

mutual

theorem calls_replace (inner : List String) : (e : Expr) → (replace x (asking z) inner e).calls = e.calls
  | .call ns name args span => by
    rw [replace]
    split
    · rename_i y hasked
      obtain ⟨rfl, -, rfl⟩ := asked?_eq_some.mp hasked
      split <;> rfl
    · rw [calls, calls, calls_replaceAll _ args]
  | .property target name span => by rw [replace, calls, calls, calls_replace inner target]
  | .index target i span => by rw [replace, calls, calls, calls_replace inner target, calls_replace inner i]
  | .str _ => rfl
  | .int _ _ => rfl
  | .bool _ => rfl
  | .null => rfl

theorem calls_replaceAll (inner : List String) :
    (es : List Expr) → callsOf (replaceAll x (asking z) inner es) = callsOf es
  | [] => rfl
  | e :: es => by rw [replaceAll, callsOf, callsOf, calls_replace inner e, calls_replaceAll inner es]

end

end

/-! ### The body of a lambda -/

variable {σ : Type} {h : Host σ}

theorem value_asking {name y : String} {span : Span} (hname : Name.same name "lambdaVariables" = true)
    (scopes : Scopes) : (meaning h (asking y name span)).value scopes =
      match scopes.find? y with
      | some v => pure v
      | none => throw (.unknownLambdaVariable y) := by
  change Meaning.call h none name (meanings h [.str y]) span scopes = _
  unfold Meaning.call
  dsimp only
  rw [Catalog.lookup?_lambdaVariables.mpr hname]
  rfl

section
variable {x z : String} {inner : List String} {scopes scopes' : Scopes}

/-- What asks for a variable may ask for the new name if it means the parameter, and is left as it is if not. -/
theorem variable_sameInside (hr : Renames x z inner scopes scopes') {name y : String}
    (hname : Name.same name "lambdaVariables" = true) (span : Span)
    (hfresh : means x inner y = false → Name.same y z = false) :
    SameInside h scopes scopes' (asking y name span)
      (if means x inner y then asking z name span else asking y name span) := by
  have hlambda : ((none : Option String).isNone && Name.same name "lambda") = false := by
    rw [Name.same, Name.same_iff.mp hname]
    rfl
  have hparts (u : String) : parts? (asking u name span) = none := parts?_eq_none span hlambda
  cases hmeans : means x inner y with
  | true =>
    obtain ⟨v, hy, hz⟩ := hr.renamed y hmeans
    rw [if_pos rfl]
    refine .of_parts_eq_none ?_ rfl (hparts y) (hparts z)
    rw [value_asking hname, value_asking hname, hy, hz]
  | false =>
    rw [if_neg Bool.false_ne_true]
    refine .of_parts_eq_none ?_ rfl (hparts y) (hparts y)
    rw [value_asking hname, value_asking hname, hr.other y hmeans (hfresh hmeans)]

end

section
variable {x z : String}

mutual

theorem replace_sameInside (inner : List String) (scopes scopes' : Scopes) (hr : Renames x z inner scopes scopes') :
    (e : Expr) → (∀ n ∈ e.nodes, n.asksLiterally = true) →
      (∀ y ∈ (replace x nothing inner e).variableNames, Name.same y z = false) →
      SameInside h scopes scopes' e (replace x (asking z) inner e)
  | .str _, _, _ => .of_parts_eq_none rfl rfl rfl rfl
  | .int _ _, _, _ => .of_parts_eq_none rfl rfl rfl rfl
  | .bool _, _, _ => .of_parts_eq_none rfl rfl rfl rfl
  | .null, _, _ => .of_parts_eq_none rfl rfl rfl rfl
  | .property target name span, hliteral, hfresh => by
    rw [replace, variableNames_property] at hfresh
    rw [nodes, List.forall_mem_cons] at hliteral
    have htarget := replace_sameInside inner scopes scopes' hr target hliteral.2 hfresh
    refine .of_parts_eq_none ?_ (calls_replace inner _).symm rfl rfl
    exact htarget.value.bind fun v => rfl
  | .index target i span, hliteral, hfresh => by
    rw [replace, variableNames_index, List.forall_mem_append] at hfresh
    rw [nodes, List.forall_mem_cons, List.forall_mem_append] at hliteral
    obtain ⟨-, hltarget, hli⟩ := hliteral
    have htarget := replace_sameInside inner scopes scopes' hr target hltarget hfresh.1
    have hi := replace_sameInside inner scopes scopes' hr i hli hfresh.2
    refine .of_parts_eq_none ?_ (calls_replace inner _).symm rfl rfl
    exact htarget.value.bind fun v => hi.value.bind fun w => rfl
  | .call ns name args span, hliteral, hfresh => by
    cases hasked : asked? ns name args with
    | some y =>
      obtain ⟨rfl, hname, rfl⟩ := asked?_eq_some.mp hasked
      simp only [replace, hasked] at hfresh ⊢
      refine variable_sameInside hr hname span fun hmeans => ?_
      rw [hmeans, if_neg Bool.false_ne_true, variableNames_call] at hfresh
      exact hfresh y (List.mem_append_left _ (by simp [ownNames, hasked]))
    | none =>
      simp only [replace, hasked] at hfresh ⊢
      rw [variableNames_call, List.forall_mem_append] at hfresh
      rw [nodes, List.forall_mem_cons] at hliteral
      obtain ⟨hown, hfresh⟩ := hfresh
      obtain ⟨hasks, hliteral⟩ := hliteral
      have hnothing : (replaceAll x nothing (binders ns name args ++ inner) args).map text? = args.map text? :=
        texts_replaceAll (fun _ _ => rfl) args
      refine .call span (texts_replaceAll (fun _ _ => rfl) args).symm (calls_replaceAll _ args).symm ?_ ?_ ?_
      · -- the inner lambda hides what it binds, on both stacks, and binds nothing of the new name
        intro hlambda bindings hbindings
        have hbinders : binders ns name args = bindings.map Prod.fst := by rw [binders, if_pos hlambda, hbindings]
        have hnames : ∀ y ∈ bindings.map Prod.fst, Name.same y z = false := fun y hy => by
          rw [← hbinders, ← binders_congr hnothing] at hy
          exact hown y (List.mem_append_left _ hy)
        rw [hbinders] at hfresh ⊢
        exact replaceAll_sameInside _ _ _ (hr.push hnames) args hliteral hfresh
      · intro hlambda
        have hbinders : binders ns name args = [] := if_neg (by rw [hlambda]; exact Bool.false_ne_true)
        rw [hbinders, List.nil_append] at hfresh ⊢
        exact replaceAll_sameInside inner scopes scopes' hr args hliteral hfresh
      · -- a variable that is asked for by a literal was replaced above
        rintro rfl hname hlength
        obtain ⟨y, hy⟩ := asked?_of_asksLiterally hasks hname hlength
        cases hasked.symm.trans hy

theorem replaceAll_sameInside (inner : List String) (scopes scopes' : Scopes) (hr : Renames x z inner scopes scopes') :
    (es : List Expr) → (∀ n ∈ nodesOf es, n.asksLiterally = true) →
      (∀ y ∈ variableNamesOf (replaceAll x nothing inner es), Name.same y z = false) →
      AllSameInside h scopes scopes' es (replaceAll x (asking z) inner es)
  | [], _, _ => .nil
  | e :: es, hliteral, hfresh => by
    rw [replaceAll, variableNamesOf_cons, List.forall_mem_append] at hfresh
    rw [nodesOf, List.forall_mem_append] at hliteral
    exact .cons (replace_sameInside inner scopes scopes' hr e hliteral.1 hfresh.1)
      (replaceAll_sameInside inner scopes scopes' hr es hliteral.2 hfresh.2)

end

end

/-! ### Parameters -/

structure Parameter where
  keyword : String
  isLambda : Name.same keyword "lambda" = true
  /-- The parameters before it. -/
  before : List Expr
  name : String
  /-- The parameters after it. -/
  after : List Expr
  body : Expr
  span : Span

namespace Parameter

/-- The names of the parameters before it; one of the same name hides it. -/
def shadowing (p : Parameter) : List String := p.before.filterMap text?

/-- The lambda with something in place of the parameter, and `f` in place of what means the parameter in the body. -/
def replace (p : Parameter) (param : Expr) (f : String → Span → Expr) : Expr :=
  .call none p.keyword (p.before ++ param :: p.after ++ [p.body.replace p.name f p.shadowing]) p.span

def lambda (p : Parameter) : Expr :=
  .call none p.keyword (p.before ++ .str p.name :: p.after ++ [p.body]) p.span

def renamed (p : Parameter) (z : String) : Expr := p.replace (.str z) (asking z)

/-- The names of variables in the lambda but for the parameter and what means it. -/
def otherNames (p : Parameter) : List String := (p.replace .null nothing).variableNames

theorem calls_renamed (p : Parameter) (z : String) : p.lambda.calls = (p.renamed z).calls := by
  simp only [lambda, renamed, replace, calls, callsOf_append, callsOf, calls_replace]

theorem shadowing_subset (p : Parameter) : p.shadowing ⊆ p.otherNames := by
  intro y hy
  rw [otherNames, replace, variableNames_call, ownNames, binders, if_pos (by simp [p.isLambda])]
  refine List.mem_append_left _ (List.mem_append_left _ ?_)
  rw [parameters, List.dropLast_concat, List.filterMap_append]
  exact List.mem_append_left _ hy

theorem variableNames_body_subset (p : Parameter) :
    (p.body.replace p.name nothing p.shadowing).variableNames ⊆ p.otherNames := by
  rw [otherNames, replace, variableNames_call]
  exact List.subset_append_of_subset_right _ (variableNames_subset (List.mem_append_right _ List.mem_cons_self))

/-- In a lambda that binds the parameter, what means it may ask for the new name. -/
theorem body_renamed (p : Parameter) {z : String} (hliteral : ∀ n ∈ p.body.nodes, n.asksLiterally = true)
    (hfresh : ∀ y ∈ p.otherNames, Name.same y z = false) {before : Bindings}
    (hbefore : before.map Prod.fst = p.shadowing) (v : Json) (after : Bindings) (scopes : Scopes) :
    SameInside h ((before ++ (p.name, v) :: after) :: scopes) ((before ++ (z, v) :: after) :: scopes)
      p.body (p.body.replace p.name (asking z) p.shadowing) := by
  have hhiding : ∀ y ∈ before.map Prod.fst, Name.same y z = false := by
    intro y hy
    rw [hbefore] at hy
    exact hfresh y (p.shadowing_subset hy)
  have hnames : ∀ y ∈ (p.body.replace p.name nothing p.shadowing).variableNames, Name.same y z = false :=
    fun y hy => hfresh y (p.variableNames_body_subset hy)
  rw [← hbefore] at hnames ⊢
  exact replace_sameInside _ _ _ (.among hhiding p.name v after scopes) p.body hliteral hnames

theorem parameters_replace (p : Parameter) (x : String) (body : Expr) :
    parameters (p.before ++ .str x :: p.after ++ [body]) = p.shadowing ++ x :: p.after.filterMap text? := by
  rw [parameters, List.dropLast_concat, List.filterMap_append, shadowing]
  rfl

theorem allNamed_replace (p : Parameter) (x z : String) (body body' : Expr) :
    allNamed (p.before ++ .str x :: p.after ++ [body]) = allNamed (p.before ++ .str z :: p.after ++ [body']) := by
  rw [allNamed, allNamed, List.dropLast_concat, List.dropLast_concat, List.all_append, List.all_append, List.all_cons,
    List.all_cons]
  rfl

/-- A lambda refuses the same values whatever the name of the parameter is, and binds the parameter to the same. -/
theorem checkLambda_replace (p : Parameter) (z : String) (body : Expr) (values : List Json) :
    (∃ e, checkLambda (p.before ++ .str p.name :: p.after ++ [p.body]) values = .error e ∧
      checkLambda (p.before ++ .str z :: p.after ++ [body]) values = .error e) ∨
    ∃ (before : Bindings) (v : Json) (after : Bindings), before.map Prod.fst = p.shadowing ∧
      checkLambda (p.before ++ .str p.name :: p.after ++ [p.body]) values = .ok (before ++ (p.name, v) :: after) ∧
      checkLambda (p.before ++ .str z :: p.after ++ [body]) values = .ok (before ++ (z, v) :: after) := by
  have hparts : (p.before ++ .str p.name :: p.after ++ [p.body]).length =
      (p.before ++ .str z :: p.after ++ [body]).length := by simp
  -- values are refused by the number of the parameters and by which of them are literals
  by_cases hlength : (p.before ++ .str p.name :: p.after ++ [p.body]).length = values.length + 1
  · rw [checkLambda_eq hlength, checkLambda_eq (hparts.symm.trans hlength), p.allNamed_replace z p.name body p.body,
      p.parameters_replace, p.parameters_replace]
    cases allNamed (p.before ++ .str p.name :: p.after ++ [p.body]) with
    | false => exact .inl ⟨_, rfl, rfl⟩
    | true =>
      have hbefore : p.shadowing.length ≤ p.before.length := List.length_filterMap_le _ _
      have hshadowing : p.shadowing.length < values.length := by
        simp only [List.length_append, List.length_cons, List.length_nil] at hlength
        omega
      obtain ⟨before, v, after, hnames, hzip⟩ := zip_insert (p.after.filterMap text?) hshadowing
      refine .inr ⟨before, v, after, hnames, ?_, ?_⟩
      · rw [hzip, if_pos rfl]
      · rw [hzip, if_pos rfl]
  · obtain ⟨e, he⟩ := checkLambda_of_length_ne hlength
    exact .inl ⟨e, he, checkLambda_of_length_eq hparts hlength ▸ he⟩

/-- For values of its parameters, the lambda gives the same if the parameter has another name. -/
theorem apply_renamed (p : Parameter) {z : String} (hliteral : ∀ n ∈ p.body.nodes, n.asksLiterally = true)
    (hfresh : ∀ y ∈ p.otherNames, Name.same y z = false) (scopes : Scopes) (values : List Json) :
    (meaning h p.lambda).apply (p.before ++ .str p.name :: p.after ++ [p.body]) scopes values =
      (meaning h (p.renamed z)).apply
        (p.before ++ .str z :: p.after ++ [p.body.replace p.name (asking z) p.shadowing]) scopes values := by
  unfold Meaning.apply
  rcases p.checkLambda_replace z (p.body.replace p.name (asking z) p.shadowing) values with
    ⟨e, he, he'⟩ | ⟨before, v, after, hbefore, hbound, hbound'⟩
  · rw [he, he']
    rfl
  · rw [hbound, hbound']
    change (meaning h p.lambda).body _ = (meaning h (p.renamed z)).body _
    rw [lambda, renamed, replace, body_call, body_call]
    exact (p.body_renamed hliteral hfresh hbefore v after scopes).value

theorem renamed_sameInside (p : Parameter) {z : String} (hliteral : ∀ n ∈ p.body.nodes, n.asksLiterally = true)
    (hfresh : ∀ y ∈ p.otherNames, Name.same y z = false) (scopes : Scopes) :
    SameInside h scopes scopes p.lambda (p.renamed z) where
  value := (value_lambda h scopes _ p.span p.isLambda).trans (value_lambda h scopes _ p.span p.isLambda).symm
  remark := remarkUnknown_congr (p.calls_renamed z)
  lambda := by
    have hparts (args : List Expr) : parts? (.call none p.keyword args p.span) = some args := if_pos p.isLambda
    rw [expr_meaning, expr_meaning, lambda, renamed, replace, hparts, hparts]
    exact .some (p.apply_renamed hliteral hfresh scopes)

/-- A lambda may stand for the one in which a parameter has another name. -/
theorem renamed_interchangeable (p : Parameter) {z : String} (hliteral : ∀ n ∈ p.body.nodes, n.asksLiterally = true)
    (hfresh : ∀ y ∈ p.otherNames, Name.same y z = false) : Interchangeable h p.lambda (p.renamed z) :=
  ⟨p.calls_renamed z, rfl, p.renamed_sameInside hliteral hfresh⟩

end Parameter

/-- Variables are scoped lexically. Wherever a lambda stands whose body asks for variables by literals, it makes no
difference to the value, the error or what is done on the host if a parameter and what means it in the body have another
name that the lambda does not have. -/
theorem eval_renamed (h : Host σ) (C : Context) (p : Parameter) {z : String}
    (hliteral : ∀ n ∈ p.body.nodes, n.asksLiterally = true) (hfresh : ∀ y ∈ p.otherNames, Name.same y z = false)
    (scopes : Scopes) (s : σ) :
    outcome (eval h scopes (C.plug (p.renamed z))) s = outcome (eval h scopes (C.plug p.lambda)) s := by
  have hplug := (p.renamed_interchangeable (h := h) hliteral hfresh).plug C
  have hvalue : eval h scopes (C.plug p.lambda) = eval h scopes (C.plug (p.renamed z)) := (hplug.inside scopes).value
  rw [hvalue]

def variableNamed (x : String) : Expr := asking x "lambdaVariables" ⟨0, 0⟩

/-- The lambda that adds up two variables, the second of which is `x`. -/
def adding : Expr :=
  .call none "lambda" [.str "sum", .str "x", .call none "add" [variableNamed "sum", variableNamed "x"] ⟨0, 0⟩] ⟨0, 0⟩

/-- The parameter `x` of a lambda in which another lambda has a parameter of this name. -/
def outerParameter : Parameter where
  keyword := "Lambda"
  isLambda := rfl
  before := []
  name := "x"
  after := []
  body := .call none "reduce"
    [.call none "createArray" [variableNamed "X", .int "3" ⟨0, 0⟩] ⟨0, 0⟩, variableNamed "x", adding] ⟨0, 0⟩
  span := ⟨0, 0⟩

/-- What the lambda of `outerParameter` gives for the items of an array. -/
def outerContext : Context :=
  .argument none "map" [.call none "createArray" [.int "1" ⟨0, 0⟩, .int "2" ⟨0, 0⟩] ⟨0, 0⟩] .hole [] ⟨0, 0⟩

/-- The parameter of the outer lambda has another name, and what means it asks for this name. The inner lambda keeps its
own. -/
theorem eval_renamed_shadowed :
    outerParameter.renamed "y" = .call none "Lambda" [.str "y", .call none "reduce"
      [.call none "createArray" [variableNamed "y", .int "3" ⟨0, 0⟩] ⟨0, 0⟩, variableNamed "y", adding] ⟨0, 0⟩] ⟨0, 0⟩ ∧
    outcome (eval Standalone.host [] (outerContext.plug outerParameter.lambda)) {} = (.ok (.arr [.int 5, .int 7]), {}) ∧
    outcome (eval Standalone.host [] (outerContext.plug (outerParameter.renamed "y"))) {} =
      outcome (eval Standalone.host [] (outerContext.plug outerParameter.lambda)) {} :=
  ⟨rfl, rfl, eval_renamed Standalone.host outerContext outerParameter (by decide) (by decide) [] {}⟩

end ResourceTemplate.Expr
