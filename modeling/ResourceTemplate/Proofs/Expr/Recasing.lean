import ResourceTemplate.Proofs.Catalog.Spelling
import ResourceTemplate.Proofs.Expr.Evaluation

namespace ResourceTemplate.Expr

abbrev SameNamespace : Option String → Option String → Prop := Option.Rel fun ns ns' => Name.same ns ns' = true

mutual

/-- Expressions that are the same but for the case of the names and namespaces of functions. -/
inductive Recased : Expr → Expr → Prop
  | str (text : String) : Recased (.str text) (.str text)
  | int (literal : String) (span : Span) : Recased (.int literal span) (.int literal span)
  | bool (value : Bool) : Recased (.bool value) (.bool value)
  | null : Recased .null .null
  | call {ns ns' : Option String} {name name' : String} {args args' : List Expr} (span : Span) :
    SameNamespace ns ns' → Name.same name name' = true → AllRecased args args' →
      Recased (.call ns name args span) (.call ns' name' args' span)
  | property {target target' : Expr} (name : String) (span : Span) :
    Recased target target' → Recased (.property target name span) (.property target' name span)
  | index {target target' i i' : Expr} (span : Span) :
    Recased target target' → Recased i i' → Recased (.index target i span) (.index target' i' span)

inductive AllRecased : List Expr → List Expr → Prop
  | nil : AllRecased [] []
  | cons {e e' : Expr} {es es' : List Expr} : Recased e e' → AllRecased es es' → AllRecased (e :: es) (e' :: es')

end

theorem SameNamespace.symm {ns ns' : Option String} (h : SameNamespace ns ns') : SameNamespace ns' ns := by
  cases h with
  | none => exact .none
  | some h => exact .some (by rwa [Name.same_comm])

mutual

theorem Recased.symm : {e e' : Expr} → Recased e e' → Recased e' e
  | _, _, .str _ => .str _
  | _, _, .int _ _ => .int _ _
  | _, _, .bool _ => .bool _
  | _, _, .null => .null
  | _, _, .call span hns hname hargs => .call span hns.symm (by rwa [Name.same_comm]) hargs.symm
  | _, _, .property name span h => .property name span h.symm
  | _, _, .index span h hi => .index span h.symm hi.symm

theorem AllRecased.symm : {es es' : List Expr} → AllRecased es es' → AllRecased es' es
  | _, _, .nil => .nil
  | _, _, .cons h hs => .cons h.symm hs.symm

end

/-- Calls of the same function at the same place. -/
structure CallSite.Recased (c c' : CallSite) : Prop where
  ns : SameNamespace c.ns c'.ns
  name : Name.same c.name c'.name = true
  span : c.span = c'.span

mutual

theorem Recased.calls : {e e' : Expr} → Recased e e' → List.Forall₂ CallSite.Recased e.calls e'.calls
  | _, _, .str _ => .nil
  | _, _, .int _ _ => .nil
  | _, _, .bool _ => .nil
  | _, _, .null => .nil
  | _, _, .call _ hns hname hargs => .cons ⟨hns, hname, rfl⟩ hargs.calls
  | _, _, .property _ _ h => h.calls
  | _, _, .index _ h hi => List.rel_append h.calls hi.calls

theorem AllRecased.calls : {es es' : List Expr} → AllRecased es es' →
    List.Forall₂ CallSite.Recased (callsOf es) (callsOf es')
  | _, _, .nil => .nil
  | _, _, .cons h hs => List.rel_append h.calls hs.calls

end

theorem Recased.text? {e e' : Expr} (h : Recased e e') : Expr.text? e = Expr.text? e' := by
  cases h <;> rfl

theorem AllRecased.texts {es es' : List Expr} (h : AllRecased es es') : es.map Expr.text? = es'.map Expr.text? := by
  induction es generalizing es' with
  | nil =>
    cases h
    rfl
  | cons e es ih =>
    cases h with
    | cons he hes => rw [List.map_cons, List.map_cons, he.text?, ih hes]

end ResourceTemplate.Expr

namespace ResourceTemplate

/-- Texts of warnings that are the same but for the case of a name that they quote. -/
def Expr.SameButCase (text other : String) : Prop :=
  text = other ∨ ∃ name name' offset, Name.same name name' = true ∧ text = unknownRemark name offset ∧
    other = unknownRemark name' offset

namespace Host

variable {σ : Type} {R : σ → σ → Prop}

/-- Whether the functions that users define are the same by names in any case. -/
def MatchesCaseless (h : Host σ) : Prop :=
  ∀ {ns ns' name name' : String}, Name.same ns ns' = true → Name.same name name' = true → ∀ values,
    (Accord.following Eq).Agree (h.userFunction ns name values) (h.userFunction ns' name' values)

/-- Whether a host takes states for the same that are related, and does not look at the case of a name that a remark
quotes: its answers are the same in such states, and lead to such states. -/
structure OverlooksCase (h : Host σ) (R : σ → σ → Prop) : Prop where
  refl (s : σ) : R s s
  answers : HostsAgree (Accord.following R) .all h h
  remarks {text other : String} {s t : σ} : Expr.SameButCase text other → R s t → R (h.warn text s) (h.warn other t)

end Host

theorem Accord.following_trans {σ α : Type} {R : σ → σ → Prop} {m n p : EvalM σ α} (hm : (Accord.following R).Agree m n)
    (hn : (Accord.following Eq).Agree n p) : (Accord.following R).Agree m p := by
  intro s t hs a u ha
  obtain ⟨v, hv, huv⟩ := hm s t hs a u ha
  obtain ⟨w, hw, rfl⟩ := hn t t rfl a v hv
  exact ⟨v, hw, huv⟩

namespace Expr

theorem sameValue_truth (f g : String) (i : Nat) (v : Json) : SameValue (truth f i v) (truth g i v) := by
  cases v <;> rfl

theorem sameValue_itemsOf (f g : String) (i : Nat) (v : Json) : SameValue (itemsOf f i v) (itemsOf g i v) := by
  cases v <;> rfl

theorem sameValue_lambdaParts (f g : String) (i : Nat) (e : Expr) :
    SameValue (lambdaParts f i e) (lambdaParts g i e) := by
  rw [lambdaParts_eq, lambdaParts_eq]
  cases parts? e <;> rfl

namespace Meaning

variable {σ : Type} {h : Host σ} {scopes : Scopes}

section

variable (f g : String)

theorem settle_renamed (unit : Bool) (i : Nat) (ms : List (Meaning σ)) :
    (Accord.following Eq).Agree (settle f unit scopes i ms) (settle g unit scopes i ms) := by
  induction ms generalizing i with
  | nil => exact .pure _
  | cons m ms ih =>
    exact (Accord.following_refl _).bind fun v => (Accord.following_lift (sameValue_truth f g i v)).bind fun b =>
      .ite (ih _) (.pure _)

theorem items_renamed (source : Meaning σ) :
    (Accord.following Eq).Agree (items f scopes source) (items g scopes source) :=
  (Accord.following_refl _).bind fun v => Accord.following_lift (sameValue_itemsOf f g 0 v)

theorem lambda_renamed (i : Nat) (e : Expr) (k : List Expr → EvalM σ Json) :
    (Accord.following Eq).Agree (Host.lift (lambdaParts f i e) >>= k) (Host.lift (lambdaParts g i e) >>= k) :=
  (Accord.following_lift (sameValue_lambdaParts f g i e)).bind fun _ => Accord.following_refl _

theorem special_renamed (form : Catalog.SpecialForm) (ms : List (Meaning σ)) :
    (Accord.following Eq).Agree (special h form f ms scopes) (special h form g ms scopes) := by
  -- each form by its own operands; by others its count is refused
  unfold special
  split
  · exact (Accord.following_refl _).bind fun v => (Accord.following_lift (sameValue_truth f g 0 v)).bind fun _ =>
      Accord.following_refl _
  · exact Accord.following_throw _ _
  · exact (settle_renamed f g _ _ _).bind fun _ => .pure _
  · exact Accord.following_throw _ _
  · exact (settle_renamed f g _ _ _).bind fun _ => .pure _
  · exact Accord.following_throw _ _
  · exact Accord.following_throw _ _
  · exact Accord.following_refl _
  · exact Accord.following_throw _ _
  · exact (items_renamed f g _).bind fun _ => lambda_renamed f g _ _ _
  · exact Accord.following_throw _ _
  · exact (items_renamed f g _).bind fun _ => lambda_renamed f g _ _ _
  · exact Accord.following_throw _ _
  · exact (items_renamed f g _).bind fun _ => (Accord.following_refl _).bind fun _ => lambda_renamed f g _ _ _
  · exact Accord.following_throw _ _
  · exact (items_renamed f g _).bind fun _ => lambda_renamed f g _ _ _
  · exact Accord.following_throw _ _

end

theorem call_renamed (hm : h.MatchesCaseless) {ns ns' : Option String} {name name' : String}
    (hns : SameNamespace ns ns') (hname : Name.same name name' = true) (ms : List (Meaning σ)) (span : Span) :
    (Accord.following Eq).Agree (call h ns name ms span scopes) (call h ns' name' ms span scopes) := by
  cases hns with
  | some hns => exact (Accord.following_refl _).bind fun vs => hm hns hname vs
  | none =>
    unfold call
    dsimp only
    rw [Catalog.lookup?_congr hname]
    cases hl : Catalog.lookup? σ name' with
    | none => exact Accord.following_throw _ _
    | some entry =>
      have hentry := Catalog.lookup?_nameless hl
      cases entry with
      | value F =>
        exact (Accord.following_refl _).bind fun vs => Accord.following_lift (hentry name name' vs)
      | asking F => exact (Accord.following_refl _).bind fun vs => hentry h name name' vs
      | special form => exact special_renamed name name' form ms

end Meaning
variable {σ : Type} {h : Host σ} {R : σ → σ → Prop}

theorem CallSite.Recased.isKnown {c c' : CallSite} (hc : c.Recased c') :
    (c.ns.isNone && !Catalog.isKnown c.name) = (c'.ns.isNone && !Catalog.isKnown c'.name) := by
  have hns : c.ns.isNone = c'.ns.isNone := by
    have hns := hc.ns
    generalize c.ns = ns at hns
    generalize c'.ns = ns' at hns
    cases hns <;> rfl
  rw [hns, Catalog.isKnown, Catalog.isKnown, Catalog.lookup?_congr hc.name]

theorem Recased.remark (ho : h.OverlooksCase R) {e e' : Expr} (he : Recased e e') :
    (Accord.following R).Agree (remarkUnknown h e) (remarkUnknown h e') := by
  have hcalls := he.calls
  unfold remarkUnknown
  generalize e.calls = cs at hcalls
  generalize e'.calls = cs' at hcalls
  induction hcalls with
  | nil => exact .pure _
  | @cons c c' cs cs' hc hcs ih =>
    rw [List.filter_cons, List.filter_cons, hc.isKnown]
    split
    · refine Accord.Agree.bind (Accord.following_remark fun _ _ hs => ho.remarks (.inr ?_) hs) fun _ => ih
      exact ⟨c.name, c'.name, c.span.start, hc.name, rfl, by rw [hc.span]; rfl⟩
    · exact ih

theorem leaf_recased (ho : h.OverlooksCase R) (scopes : Scopes) {e : Expr} (he : Recased e e) (hparts : parts? e = none)
    (r : Except ExprError Json) :
    Meaning.AgreesInside (Accord.following R) h h scopes scopes (leaf e r) (leaf e r) where
  value := Accord.following_lift (.refl r)
  remark := he.remark ho
  lambda := by
    change Option.Rel _ (parts? e) (parts? e)
    rw [hparts]
    exact .none

mutual

/-- An expression in another case agrees in its value, in the remarks on the calls in it and as a lambda. -/
theorem Recased.inside (ho : h.OverlooksCase R) (hm : h.MatchesCaseless) : {e e' : Expr} → Recased e e' → ∀ scopes,
    Meaning.AgreesInside (Accord.following R) h h scopes scopes (meaning h e) (meaning h e')
  | _, _, .str text, scopes => leaf_recased ho scopes (.str text) rfl _
  | _, _, .int literal span, scopes => leaf_recased ho scopes (.int literal span) rfl _
  | _, _, .bool b, scopes => leaf_recased ho scopes (.bool b) rfl _
  | _, _, .null, scopes => leaf_recased ho scopes .null rfl _
  | _, _, .property name span ht, scopes => by
    refine ⟨?_, Recased.remark ho (.property name span ht), .none⟩
    exact (ht.inside ho hm scopes).value.bind fun v => Accord.following_lift (.refl _)
  | _, _, .index span ht hi, scopes => by
    refine ⟨?_, Recased.remark ho (.index span ht hi), .none⟩
    exact (ht.inside ho hm scopes).value.bind fun v => (hi.inside ho hm scopes).value.bind fun w =>
      Accord.following_lift (.refl _)
  | _, _, @Recased.call ns ns' name name' args args' span hns hname hargs, scopes => by
    have hA := Accord.following_evaluates R
    refine ⟨?_, Recased.remark ho (.call span hns hname hargs), ?_⟩
    · -- first the arguments change, then the name
      refine Accord.following_trans ?_ (Meaning.call_renamed hm hns hname (meanings h args') span)
      have hinside := hargs.inside ho hm scopes
      refine Meaning.agree_call hA ho.answers ns name span span
        (Callees.cover_all [⟨ns, name, span⟩] _ List.mem_cons_self) (Accord.following_throw _ _) hinside
        fun _ _ m m' hms hms' => ?_
      rw [hms, hms'] at hinside
      exact Meaning.agree_lambdaVariable hA (List.forall₂_cons.mp hinside).1 fun _ => rfl
    · -- the name decides only whether this is a lambda
      have hparts : parts? (.call ns' name' args' span) = parts? (.call ns name args' span) := by
        have hsame : Name.same name' "lambda" = Name.same name "lambda" := by
          rw [Name.same, Name.same, Name.same_iff.mp hname]
        cases hns with
        | some _ => rfl
        | none => simp only [parts?, hsame]
      rw [expr_meaning, expr_meaning, hparts]
      exact Meaning.agree_lambda hA span span hargs.texts fun _ bindings _ => hargs.inside ho hm (bindings :: scopes)

theorem AllRecased.inside (ho : h.OverlooksCase R) (hm : h.MatchesCaseless) : {es es' : List Expr} →
    AllRecased es es' → ∀ scopes, Meaning.AllAgreeInside (Accord.following R) h h scopes scopes
      (meanings h es) (meanings h es')
  | _, _, .nil, _ => .nil
  | _, _, .cons he hes, scopes => .cons (he.inside ho hm scopes) (hes.inside ho hm scopes)

end

end Expr

/-- Whether a second expression gives what the first gives, and leaves what it leaves up to the states that a host takes
for the same, and fails if the first fails. -/
def Host.EvaluatesAlike {σ : Type} (h : Host σ) (R : σ → σ → Prop) (e e' : Expr) : Prop :=
  ∀ (scopes : Expr.Scopes) (s : σ),
    (∀ v t, outcome (Expr.eval h scopes e) s = (.ok v, t) →
      ∃ t', outcome (Expr.eval h scopes e') s = (.ok v, t') ∧ R t t') ∧
    ∀ x t, outcome (Expr.eval h scopes e) s = (.error x, t) →
      ∃ x' t', outcome (Expr.eval h scopes e') s = (.error x', t')

/-- An expression in another case does the same on a host that overlooks case. -/
theorem Host.OverlooksCase.evaluatesAlike {σ : Type} {h : Host σ} {R : σ → σ → Prop} (ho : h.OverlooksCase R)
    (hm : h.MatchesCaseless) {e e' : Expr} (he : Expr.Recased e e') : h.EvaluatesAlike R e e' := by
  intro scopes s
  refine ⟨fun v t hv => (he.inside ho hm scopes).value s s (ho.refl s) v t hv, fun x t hx => ?_⟩
  rcases hother : outcome (Expr.eval h scopes e') s with ⟨x' | v, t'⟩
  · exact ⟨x', t', rfl⟩
  · -- the first would give what the second gives
    obtain ⟨u, hu, -⟩ := (he.symm.inside ho hm scopes).value s s (ho.refl s) v t' hother
    change outcome (Expr.eval h scopes e) s = _ at hu
    rw [hx] at hu
    cases hu

theorem Standalone.host_matchesCaseless : Standalone.host.MatchesCaseless := fun _ _ _ => Accord.following_throw _ _

theorem Standalone.host_overlooksCase : Standalone.host.OverlooksCase (SameButWarnings Expr.SameButCase) :=
  ⟨.refl fun _ => .inl rfl, answers_sameButWarnings fun _ => .inl rfl, fun hQ hs => hs.warn hQ⟩

end ResourceTemplate
