import ResourceTemplate.Proofs.Catalog.Surroundings
import ResourceTemplate.Proofs.Expr.Lambdas

namespace ResourceTemplate.Sort

variable {σ α : Type} {A : Accord ExprError σ} {less less' : α → α → EvalM σ Bool}
  (hl : ∀ x y, A.Agree (less x y) (less' x y))
include hl

theorem agree_precedes (x y : α) : A.Agree (precedes less x y) (precedes less' x y) := by
  refine (hl x y).bind fun b => ?_
  cases b with
  | true => exact .pure _
  | false => exact (hl y x).bind fun _ => .pure _

theorem agree_carry (x : α) (ys : List α) : A.Agree (carry less x ys) (carry less' x ys) := by
  induction ys with
  | nil => exact .pure _
  | cons y ys ih =>
    refine (agree_precedes hl x y).bind fun b => ?_
    cases b with
    | true => exact ih.bind fun _ => .pure _
    | false => exact .pure _

theorem agree_into (sorted xs : List α) : A.Agree (into less sorted xs) (into less' sorted xs) := by
  induction xs generalizing sorted with
  | nil => exact .pure _
  | cons x xs ih => exact (agree_carry hl x sorted).bind fun _ => ih _

theorem agree_sort (xs : List α) : A.Agree (sort less xs) (sort less' xs) :=
  (agree_into hl [] xs).bind fun _ => .pure _

end ResourceTemplate.Sort

namespace ResourceTemplate.Catalog

theorem lookup?_lambda {σ : Type} {name : String} (hname : Name.same name "lambda" = true) :
    lookup? σ name = some (.special .lambda) :=
  (lookup?_congr hname).trans rfl

theorem lookup?_lambdaVariables {σ : Type} {name : String} :
    lookup? σ name = some (.special .lambdaVariables) ↔ Name.same name "lambdaVariables" = true := by
  constructor
  · intro h
    unfold lookup? at h
    extract_lets key at h
    split at h
    · rename_i form hform
      obtain rfl : form = .lambdaVariables := by simpa using h
      have hkey := mem_of_lookup hform
      have hlist : key = "lambdavariables" := by simpa [specialForms] using hkey
      exact Name.same_iff.mpr hlist
    · split at h
      · cases h
      · split at h
        · cases h
        · split at h <;> cases h
  · intro hname
    exact (lookup?_congr hname).trans rfl

end ResourceTemplate.Catalog

namespace ResourceTemplate.Expr

variable {σ : Type} {A : Accord ExprError σ} {C : Callees}

theorem definite_propertyOf (target : Json) (name : String) : Definite (propertyOf target name) := by
  unfold propertyOf
  split
  · simp
  · split
    · split <;> simp
    · simp

theorem definite_itemAt (items : List Json) (n : Number) : Definite (itemAt items n) := by
  unfold itemAt
  split
  · simp
  · refine .ite (by simp) ?_
    split <;> simp

theorem definite_elementOf (target index : Json) : Definite (elementOf target index) := by
  unfold elementOf
  split
  · simp
  · split
    · exact definite_itemAt _ _
    · exact definite_propertyOf _ _
    · simp

theorem definite_truth (function : String) (i : Nat) (v : Json) : Definite (truth function i v) := by
  cases v <;> simp [truth]

theorem definite_itemsOf (function : String) (i : Nat) (v : Json) :
    Definite (itemsOf function i v) := by
  cases v <;> simp [itemsOf]

theorem definite_verdict (form : String) (v : Json) : Definite (verdict form v) := by
  cases v <;> simp [verdict]

theorem definite_bind (params : List Expr) (values : List Json) : Definite (bind params values) := by
  fun_induction bind params values with
  | case1 name params v values ih => exact ih.map _
  | case2 => simp
  | case3 => exact .ok _

theorem definite_checkLambda (parts : List Expr) (values : List Json) :
    Definite (checkLambda parts values) :=
  .ite (by simp) (.ite (by simp) (definite_bind _ _))

theorem definite_integerValue (literal : String) : Definite (integerValue literal) := by
  unfold integerValue
  split <;> simp

namespace Meaning

/-- Two meanings inside lambdas that agree in their values, in the remarks on the calls in them and, if they are
lambdas, in what they give for values of their parameters. -/
structure AgreesInside (A : Accord ExprError σ) (h k : Host σ) (scopes scopes' : Scopes) (m n : Meaning σ) : Prop where
  value : A.Agree (m.value scopes) (n.value scopes')
  remark : A.Agree (remarkUnknown h m.expr) (remarkUnknown k n.expr)
  lambda : Option.Rel (fun parts parts' => ∀ vs, A.Agree (m.apply parts scopes vs) (n.apply parts' scopes' vs))
    (parts? m.expr) (parts? n.expr)

abbrev AllAgreeInside (A : Accord ExprError σ) (h k : Host σ) (scopes scopes' : Scopes) :
    List (Meaning σ) → List (Meaning σ) → Prop :=
  List.Forall₂ (AgreesInside A h k scopes scopes')

section
variable {h k : Host σ} {scopes scopes' : Scopes}

theorem agree_values {ms ns : List (Meaning σ)} (ha : AllAgreeInside A h k scopes scopes' ms ns) :
    A.Agree (values scopes ms) (values scopes' ns) := by
  unfold values
  induction ha with
  | nil => exact .pure _
  | cons hm ha ih =>
    rw [List.mapM_cons, List.mapM_cons]
    exact hm.value.bind fun _ => ih.bind fun _ => .pure _

variable (hA : A.Evaluates)
include hA

/-- What is made of a lambda agrees if it does for what the lambda gives. -/
theorem agree_parts (name : String) (i : Nat) {f g : Meaning σ} (hf : AgreesInside A h k scopes scopes' f g)
    (F : (List Json → EvalM σ Json) → EvalM σ Json)
    (hF : ∀ f g, (∀ vs, A.Agree (f vs) (g vs)) → A.Agree (F f) (F g)) :
    A.Agree (Host.lift (lambdaParts name i f.expr) >>= fun parts => F (f.apply parts scopes))
      (Host.lift (lambdaParts name i g.expr) >>= fun parts => F (g.apply parts scopes')) := by
  have hlambda := hf.lambda
  rw [lambdaParts_eq, lambdaParts_eq]
  generalize parts? f.expr = r at hlambda
  generalize parts? g.expr = r' at hlambda
  cases hlambda with
  | none => exact hA.throw rfl
  | some hparts => exact hF _ _ hparts

theorem agree_settle (name : String) (unit : Bool) (i : Nat) {ms ns : List (Meaning σ)}
    (ha : AllAgreeInside A h k scopes scopes' ms ns) :
    A.Agree (settle name unit scopes i ms) (settle name unit scopes' i ns) := by
  induction ha generalizing i with
  | nil => exact .pure _
  | cons hm ha ih =>
    refine hm.value.bind fun v => (hA.lift (definite_truth name i v)).bind fun b => .ite (ih _) (.pure _)

theorem agree_items (name : String) {source source' : Meaning σ}
    (hs : AgreesInside A h k scopes scopes' source source') :
    A.Agree (items name scopes source) (items name scopes' source') :=
  hs.value.bind fun v => hA.lift (definite_itemsOf name 0 v)

theorem agree_refuseCount (name : String) {ms ns : List (Meaning σ)}
    (ha : AllAgreeInside A h k scopes scopes' ms ns) (least : Nat) (most : Option Nat) :
    A.Agree (refuseCount name ms least most) (refuseCount name ns least most) := by
  unfold refuseCount
  rw [ha.length_eq]
  exact hA.throw rfl

theorem agree_conditional (name : String) {c c' t t' e e' : Meaning σ} (hc : AgreesInside A h k scopes scopes' c c')
    (ht : AgreesInside A h k scopes scopes' t t') (he : AgreesInside A h k scopes scopes' e e') :
    A.Agree (conditional h name scopes c t e) (conditional k name scopes' c' t' e') :=
  hc.value.bind fun v => (hA.lift (definite_truth name 0 v)).bind fun _ =>
    .ite (he.remark.bind fun _ => ht.value) (ht.remark.bind fun _ => he.value)

/-- What a lambda gives agrees if its body does wherever its parameters are bound. -/
theorem agree_apply {f g : Meaning σ} {parts parts' : List Expr} (htexts : parts.map text? = parts'.map text?)
    (hbody : ∀ bindings : Bindings, bindings.map Prod.fst = parameters parts →
      A.Agree (f.body (bindings :: scopes)) (g.body (bindings :: scopes'))) (vs : List Json) :
    A.Agree (f.apply parts scopes vs) (g.apply parts' scopes' vs) := by
  have hdefinite := definite_checkLambda parts vs
  unfold apply
  rw [← checkLambda_congr htexts]
  cases hbindings : checkLambda parts vs with
  | error e =>
    rw [hbindings] at hdefinite
    exact hA.throw (hdefinite e rfl)
  | ok bindings => exact hbody bindings (names_of_checkLambda hbindings)

theorem agree_last {ms ns : List (Meaning σ)} (ha : AllAgreeInside A h k scopes scopes' ms ns) :
    A.Agree (match ms.getLast? with
        | some m => m.value scopes
        | none => throw (.invalidArgument "lambda" "missing body"))
      (match ns.getLast? with
        | some m => m.value scopes'
        | none => throw (.invalidArgument "lambda" "missing body")) := by
  induction ha with
  | nil => exact hA.throw rfl
  | cons hm ha ih =>
    cases ha with
    | nil => exact hm.value
    | cons hn ha => simpa only [List.getLast?_cons_cons] using ih

theorem agree_lambdaVariable {m n : Meaning σ} (hm : AgreesInside A h k scopes scopes' m n)
    (hvariables : ∀ x, scopes.find? x = scopes'.find? x) :
    A.Agree (lambdaVariable scopes m) (lambdaVariable scopes' n) := by
  refine hm.value.bind fun v => ?_
  split
  · rw [hvariables]
    split
    · exact .pure _
    · exact hA.throw rfl
  · exact hA.throw rfl

theorem agree_map (name : String) {source source' f g : Meaning σ}
    (hs : AgreesInside A h k scopes scopes' source source') (hf : AgreesInside A h k scopes scopes' f g) :
    A.Agree (map name scopes source f) (map name scopes' source' g) :=
  (agree_items hA name hs).bind fun xs =>
    agree_parts hA name 1 hf (fun apply => do return .arr (← xs.mapM fun x => apply [x])) fun _ _ hfg =>
      (Accord.Agree.mapM (fun x => hfg [x]) xs).bind fun _ => .pure _

theorem agree_filter (name : String) {source source' f g : Meaning σ}
    (hs : AgreesInside A h k scopes scopes' source source') (hf : AgreesInside A h k scopes scopes' f g) :
    A.Agree (filter name scopes source f) (filter name scopes' source' g) :=
  (agree_items hA name hs).bind fun xs =>
    agree_parts hA name 1 hf
      (fun apply => do return .arr (← xs.filterM fun x => do Host.lift (verdict "filter" (← apply [x]))))
      fun _ _ hfg =>
        (Accord.Agree.filterM (fun x => (hfg [x]).bind fun v => hA.lift (definite_verdict "filter" v)) xs).bind
          fun _ => .pure _

theorem agree_reduce (name : String) {source source' start start' f g : Meaning σ}
    (hs : AgreesInside A h k scopes scopes' source source') (ha : AgreesInside A h k scopes scopes' start start')
    (hf : AgreesInside A h k scopes scopes' f g) :
    A.Agree (reduce name scopes source start f) (reduce name scopes' source' start' g) :=
  (agree_items hA name hs).bind fun xs => ha.value.bind fun acc =>
    agree_parts hA name 2 hf (fun apply => xs.foldlM (fun acc x => apply [acc, x]) acc) fun _ _ hfg =>
      .foldlM (fun acc x => hfg [acc, x]) xs acc

theorem agree_sort (name : String) {source source' f g : Meaning σ}
    (hs : AgreesInside A h k scopes scopes' source source') (hf : AgreesInside A h k scopes scopes' f g) :
    A.Agree (sort name scopes source f) (sort name scopes' source' g) :=
  (agree_items hA name hs).bind fun xs =>
    agree_parts hA name 1 hf
      (fun apply => do return .arr (← Sort.sort (fun x y => do Host.lift (verdict "sort" (← apply [x, y]))) xs))
      fun _ _ hfg =>
        (Sort.agree_sort (fun x y => (hfg [x, y]).bind fun v => hA.lift (definite_verdict "sort" v)) xs).bind
          fun _ => .pure _

/-- The lambdas around a special form make a difference by themselves only where a variable is asked for. -/
theorem agree_special (form : Catalog.SpecialForm) (name : String) {ms ns : List (Meaning σ)}
    (ha : AllAgreeInside A h k scopes scopes' ms ns)
    (hvariables : form = .lambdaVariables → ∀ m n, ms = [m] → ns = [n] →
      A.Agree (lambdaVariable scopes m) (lambdaVariable scopes' n)) :
    A.Agree (special h form name ms scopes) (special k form name ns scopes') := by
  have hr (least : Nat) (most : Option Nat) := agree_refuseCount hA name ha least most
  -- what a form does is decided by the number of its arguments
  cases form with
  | conditional =>
    rcases ha with _ | ⟨hc, _ | ⟨ht, _ | ⟨he, _ | _⟩⟩⟩
    · exact hr 3 (some 3)
    · exact hr 3 (some 3)
    · exact hr 3 (some 3)
    · exact agree_conditional hA name hc ht he
    · exact hr 3 (some 3)
  | conjunction =>
    rcases ha with _ | ⟨hc, _ | ⟨hd, ha⟩⟩
    · exact hr 2 none
    · exact hr 2 none
    · exact (agree_settle hA name true 0 (.cons hc (.cons hd ha))).bind fun _ => .pure _
  | disjunction =>
    rcases ha with _ | ⟨hc, _ | ⟨hd, ha⟩⟩
    · exact hr 2 none
    · exact hr 2 none
    · exact (agree_settle hA name false 0 (.cons hc (.cons hd ha))).bind fun _ => .pure _
  | lambda => exact hA.throw rfl
  | lambdaVariables =>
    rcases ha with _ | ⟨_, _ | _⟩
    · exact hr 1 (some 1)
    · exact hvariables rfl _ _ rfl rfl
    · exact hr 1 (some 1)
  | map =>
    rcases ha with _ | ⟨hs, _ | ⟨hf, _ | _⟩⟩
    · exact hr 2 (some 2)
    · exact hr 2 (some 2)
    · exact agree_map hA name hs hf
    · exact hr 2 (some 2)
  | filter =>
    rcases ha with _ | ⟨hs, _ | ⟨hf, _ | _⟩⟩
    · exact hr 2 (some 2)
    · exact hr 2 (some 2)
    · exact agree_filter hA name hs hf
    · exact hr 2 (some 2)
  | reduce =>
    rcases ha with _ | ⟨hs, _ | ⟨hv, _ | ⟨hf, _ | _⟩⟩⟩
    · exact hr 3 (some 3)
    · exact hr 3 (some 3)
    · exact hr 3 (some 3)
    · exact agree_reduce hA name hs hv hf
    · exact hr 3 (some 3)
  | sort =>
    rcases ha with _ | ⟨hs, _ | ⟨hf, _ | _⟩⟩
    · exact hr 2 (some 2)
    · exact hr 2 (some 2)
    · exact agree_sort hA name hs hf
    · exact hr 2 (some 2)

/-- A call of a selected function agrees if its arguments do, and the variable if it asks for one. -/
theorem agree_call (hk : HostsAgree A C h k) (ns : Option String) (name : String) {ms ms' : List (Meaning σ)}
    (span span' : Span) (hc : C.Has ⟨ns, name, span⟩)
    (hrefuse : A.Agree (throw (.unknownFunction name span.start) : EvalM σ Json)
      (throw (.unknownFunction name span'.start)))
    (ha : AllAgreeInside A h k scopes scopes' ms ms')
    (hvariables : ns = none → Catalog.lookup? σ name = some (.special .lambdaVariables) → ∀ m m', ms = [m] →
      ms' = [m'] → A.Agree (lambdaVariable scopes m) (lambdaVariable scopes' m')) :
    A.Agree (call h ns name ms span scopes) (call k ns name ms' span' scopes') := by
  cases ns with
  | some ns => exact (agree_values ha).bind fun vs => hk.userFunction ns name hc vs
  | none =>
    unfold call
    dsimp only
    cases hl : Catalog.lookup? σ name with
    | none => exact hrefuse
    | some entry =>
      have hentry := Catalog.lookup?_agrees hA hc hl
      cases entry with
      | value f => exact (agree_values ha).bind fun vs => hA.lift (hentry ⟨name, vs⟩)
      | asking f => exact (agree_values ha).bind fun vs => hentry h k ⟨name, vs⟩ hk
      | special form => exact agree_special hA form name ha fun hform => hvariables rfl (hform ▸ hl)

/-- As lambdas, calls agree if their parameters read the same and their parts agree wherever these are bound. -/
theorem agree_lambda {ns : Option String} {name : String} {args args' : List Expr} (span span' : Span)
    (htexts : args.map text? = args'.map text?)
    (hargs : parts? (.call ns name args span) = some args → ∀ bindings : Bindings,
      bindings.map Prod.fst = parameters args →
        AllAgreeInside A h k (bindings :: scopes) (bindings :: scopes') (meanings h args) (meanings k args')) :
    Option.Rel (fun parts parts' => ∀ vs, A.Agree ((meaning h (.call ns name args span)).apply parts scopes vs)
        ((meaning k (.call ns name args' span')).apply parts' scopes' vs))
      (parts? (.call ns name args span)) (parts? (.call ns name args' span')) := by
  cases ns with
  | some ns => exact .none
  | none =>
    unfold parts? at hargs ⊢
    dsimp only at hargs ⊢
    by_cases hname : Name.same name "lambda" = true
    · rw [if_pos hname] at hargs
      rw [if_pos hname, if_pos hname]
      exact .some <| agree_apply hA htexts fun bindings hbindings => agree_last hA (hargs rfl bindings hbindings)
    · rw [if_neg hname, if_neg hname]
      exact .none

end
end Meaning

variable {h : Host σ}

abbrev SameInside (h : Host σ) (scopes scopes' : Scopes) (e e' : Expr) : Prop :=
  Meaning.AgreesInside (Accord.same ExprError σ) h h scopes scopes' (meaning h e) (meaning h e')

abbrev AllSameInside (h : Host σ) (scopes scopes' : Scopes) (es es' : List Expr) : Prop :=
  Meaning.AllAgreeInside (Accord.same ExprError σ) h h scopes scopes' (meanings h es) (meanings h es')

theorem expr_meaning (h : Host σ) (e : Expr) : (meaning h e).expr = e := by
  cases e <;> rfl

section
variable {scopes scopes' : Scopes} {e e' : Expr}

theorem remarkUnknown_congr (hcalls : e.calls = e'.calls) :
    remarkUnknown h (meaning h e).expr = remarkUnknown h (meaning h e').expr := by
  rw [expr_meaning, expr_meaning, remarkUnknown, remarkUnknown, hcalls]

theorem SameInside.of_parts_eq_none (hvalue : (meaning h e).value scopes = (meaning h e').value scopes')
    (hcalls : e.calls = e'.calls) (hparts : parts? e = none) (hparts' : parts? e' = none) :
    SameInside h scopes scopes' e e' where
  value := hvalue
  remark := remarkUnknown_congr hcalls
  lambda := by
    rw [expr_meaning, expr_meaning, hparts, hparts']
    exact .none

theorem SameInside.refl (h : Host σ) (scopes : Scopes) (e : Expr) : SameInside h scopes scopes e e where
  value := rfl
  remark := rfl
  lambda := by
    cases parts? (meaning h e).expr with
    | none => exact .none
    | some parts => exact .some fun _ => rfl

end

theorem meanings_eq_map (h : Host σ) (es : List Expr) : meanings h es = es.map (meaning h) := by
  induction es with
  | nil => rfl
  | cons e es ih => rw [meanings, List.map_cons, ih]

section
variable {scopes scopes' : Scopes} {ns : Option String} {name : String} {args args' : List Expr}

theorem parts?_eq_none (span : Span) (hlambda : (ns.isNone && Name.same name "lambda") = false) :
    parts? (.call ns name args span) = none := by
  cases ns with
  | some ns => rfl
  | none => exact if_neg (by simpa using hlambda)

theorem value_lambda (h : Host σ) (scopes : Scopes) (args : List Expr) (span : Span)
    (hname : Name.same name "lambda" = true) : (meaning h (.call none name args span)).value scopes =
      throw (.invalidArgument "lambda" "a lambda can only be passed to map, filter, reduce or sort") := by
  change Meaning.call h none name _ span scopes = _
  unfold Meaning.call
  dsimp only
  rw [Catalog.lookup?_lambda hname]
  rfl

theorem body_call (h : Host σ) (scopes : Scopes) (ns : Option String) (params : List Expr) (e : Expr) (span : Span) :
    (meaning h (.call ns name (params ++ [e]) span)).body scopes = (meaning h e).value scopes := by
  rw [meaning, meanings_eq_map, List.map_append, List.map_singleton]
  dsimp only
  rw [List.getLast?_concat]

/-- Calls whose arguments do the same do the same, and so do lambdas whose parts do. The lambdas around a call make a
difference by themselves if it asks for a variable. -/
theorem SameInside.call (span : Span) (htexts : args.map text? = args'.map text?)
    (hcalls : callsOf args = callsOf args')
    (hlambda : (ns.isNone && Name.same name "lambda") = true → ∀ bindings : Bindings,
      bindings.map Prod.fst = parameters args → AllSameInside h (bindings :: scopes) (bindings :: scopes') args args')
    (hargs : (ns.isNone && Name.same name "lambda") = false → AllSameInside h scopes scopes' args args')
    (hscopes : ns = none → Name.same name "lambdaVariables" = true → args.length = 1 → scopes = scopes') :
    SameInside h scopes scopes' (.call ns name args span) (.call ns name args' span) := by
  have hsites : calls (.call ns name args span) = calls (.call ns name args' span) := by rw [calls, calls, hcalls]
  cases his : ns.isNone && Name.same name "lambda" with
  | true =>
    -- by itself a lambda fails before it looks at its parts; what is made of it is made inside its parameters
    obtain ⟨hns, hname⟩ := Bool.and_eq_true_iff.mp his
    obtain rfl := Option.isNone_iff_eq_none.mp hns
    refine ⟨?_, remarkUnknown_congr hsites, ?_⟩
    · change (meaning h _).value scopes = (meaning h _).value scopes'
      rw [value_lambda h scopes args span hname, value_lambda h scopes' args' span hname]
    · exact Meaning.agree_lambda Accord.same_evaluates span span htexts fun _ => hlambda his
  | false =>
    refine .of_parts_eq_none ?_ hsites (parts?_eq_none span his) (parts?_eq_none span his)
    refine Meaning.agree_call Accord.same_evaluates (HostsAgree.same h) ns name span span
      (Callees.cover_all [⟨ns, name, span⟩] _ List.mem_cons_self) rfl (hargs his) fun hns hentry m m' hm hm' => ?_
    have hlength : args.length = 1 := by
      rw [← List.length_map (meaning h), ← meanings_eq_map, hm, List.length_singleton]
    have hinside := hargs his
    rw [AllSameInside, hm, hm'] at hinside
    refine Meaning.agree_lambdaVariable Accord.same_evaluates (List.forall₂_cons.mp hinside).1 fun _ => ?_
    rw [hscopes hns (Catalog.lookup?_lambdaVariables.mp hentry) hlength]

end

theorem AllSameInside.refl (h : Host σ) (scopes : Scopes) (es : List Expr) : AllSameInside h scopes scopes es es := by
  induction es with
  | nil => exact .nil
  | cons e es ih => exact .cons (SameInside.refl h scopes e) ih

/-- Arguments do the same if one of them is changed for one that does the same. -/
theorem SameInside.among {scopes : Scopes} {e e' : Expr} (he : SameInside h scopes scopes e e')
    (before after : List Expr) : AllSameInside h scopes scopes (before ++ e :: after) (before ++ e' :: after) := by
  induction before with
  | nil => exact .cons he (AllSameInside.refl h scopes after)
  | cons b before ih => exact .cons (SameInside.refl h scopes b) ih

theorem callsOf_append (es es' : List Expr) : callsOf (es ++ es') = callsOf es ++ callsOf es' := by
  induction es with
  | nil => rfl
  | cons e es ih => rw [List.cons_append, callsOf, callsOf, ih, List.append_assoc]

inductive Context where
  | hole
  /-- An argument, with those before it and after it. -/
  | argument (ns : Option String) (name : String) (before : List Expr) (inner : Context) (after : List Expr)
    (span : Span)
  /-- The target of a property. -/
  | property (inner : Context) (name : String) (span : Span)
  /-- The target of an index. -/
  | indexed (inner : Context) (i : Expr) (span : Span)
  | index (target : Expr) (inner : Context) (span : Span)

def Context.plug (e : Expr) : Context → Expr
  | .hole => e
  | .argument ns name before inner after span => .call ns name (before ++ plug e inner :: after) span
  | .property inner name span => .property (plug e inner) name span
  | .indexed inner i span => .index (plug e inner) i span
  | .index target inner span => .index target (plug e inner) span

/-- Two expressions on a host that do the same inside all lambdas and read the same as parameters. -/
structure Interchangeable (h : Host σ) (e e' : Expr) : Prop where
  calls : e.calls = e'.calls
  text : text? e = text? e'
  inside : ∀ scopes, SameInside h scopes scopes e e'

theorem Interchangeable.argument {e e' : Expr} (he : Interchangeable h e e') (ns : Option String) (name : String)
    (before after : List Expr) (span : Span) :
    Interchangeable h (.call ns name (before ++ e :: after) span) (.call ns name (before ++ e' :: after) span) := by
  have hcalls : callsOf (before ++ e :: after) = callsOf (before ++ e' :: after) := by
    rw [callsOf_append, callsOf_append, callsOf, callsOf, he.calls]
  have htexts : (before ++ e :: after).map text? = (before ++ e' :: after).map text? := by
    rw [List.map_append, List.map_append, List.map_cons, List.map_cons, he.text]
  refine ⟨?_, rfl, fun scopes => ?_⟩
  · rw [Expr.calls, Expr.calls, hcalls]
  · exact .call span htexts hcalls (fun _ bindings _ => (he.inside (bindings :: scopes)).among before after)
      (fun _ => (he.inside scopes).among before after) fun _ _ _ => rfl

/-- An expression may stand for another in any expression around it. -/
theorem Interchangeable.plug {e e' : Expr} (he : Interchangeable h e e') :
    (C : Context) → Interchangeable h (C.plug e) (C.plug e')
  | .hole => he
  | .argument ns name before inner after span => (he.plug inner).argument ns name before after span
  | .property inner name span => by
    have hi := he.plug inner
    refine ⟨hi.calls, rfl, fun scopes => .of_parts_eq_none ?_ hi.calls rfl rfl⟩
    exact (hi.inside scopes).value.bind fun v => rfl
  | .indexed inner i span => by
    have hi := he.plug inner
    have hcalls : (Context.plug e (.indexed inner i span)).calls = (Context.plug e' (.indexed inner i span)).calls := by
      rw [Context.plug, Context.plug, Expr.calls, Expr.calls, hi.calls]
    refine ⟨hcalls, rfl, fun scopes => .of_parts_eq_none ?_ hcalls rfl rfl⟩
    exact (hi.inside scopes).value.bind fun v => rfl
  | .index target inner span => by
    have hi := he.plug inner
    have hcalls : (Context.plug e (.index target inner span)).calls =
        (Context.plug e' (.index target inner span)).calls := by
      rw [Context.plug, Context.plug, Expr.calls, Expr.calls, hi.calls]
    refine ⟨hcalls, rfl, fun scopes => .of_parts_eq_none ?_ hcalls rfl rfl⟩
    exact (SameInside.refl h scopes target).value.bind fun v => (hi.inside scopes).value.bind fun w => rfl

end ResourceTemplate.Expr
