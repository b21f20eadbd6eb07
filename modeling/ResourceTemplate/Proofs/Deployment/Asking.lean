import ResourceTemplate.Proofs.Deployment.Hosts

namespace ResourceTemplate

def SlotTable.function : SlotTable → String
  | .parameters => "parameters"
  | .vars => "variables"

namespace Expr

/-- Whether the arguments of a call may give a name. A text that is written out gives no other. -/
def mayGive (name : String) : List Expr → Bool
  | [.str text] => text == name
  | _ => true

mutual

def mayAsk (x : Request) : Expr → Bool
  | .call ns name args _ =>
    ns.isNone && (Name.fold name == x.table.function && mayGive x.name args) || anyMayAsk x args
  | .property target _ _ => mayAsk x target
  | .index target i _ => mayAsk x target || mayAsk x i
  | _ => false

def anyMayAsk (x : Request) : List Expr → Bool
  | [] => false
  | e :: es => mayAsk x e || anyMayAsk x es

end

end Expr

def TemplateString.mayAsk (x : Request) (s : String) : Bool :=
  match TemplateString.parse s with
  | .ok (.expression e) => e.mayAsk x
  | _ => false

abbrev TemplateString.AsksOnly (N : Request → Prop) (s : String) : Prop := ∀ x, TemplateString.mayAsk x s = true → N x

variable {σ α β : Type}

def Host.answering (h : Host σ) (f : Request → EvalM σ Json) : Host σ :=
  { h with parameterValue := fun name => f ⟨.parameters, name⟩, variableValue := fun name => f ⟨.vars, name⟩ }

theorem Host.lift_bind_congr {r : Except ExprError α} {m n : α → EvalM σ β} (h : ∀ a, r = .ok a → m a = n a) :
    (Host.lift r >>= m) = Host.lift r >>= n := by
  cases r with
  | error e => rfl
  | ok a =>
    funext s
    exact congrFun (h a rfl) s

theorem Args.values_of_exactly {a : Args} {text : String} (hone : a.exactly 1 = .ok ())
    (htext : a.string 0 = .ok text) : a.values = [.str text] := by
  obtain ⟨function, values⟩ := a
  rcases values with _ | ⟨v, _ | ⟨w, rest⟩⟩
  · cases htext
  · cases v with
    | str s =>
      cases htext
      rfl
    | _ => cases htext
  · cases hone

section
variable {f g : Request → EvalM σ Json}

namespace Catalog.Surroundings

/-- A function of the catalog asks for no name but the one that it is given. -/
theorem functions_answering (h : Host σ) : ∀ e ∈ functions (σ := σ), ∀ a : Args,
    (∀ x : Request, e.1 = x.table.function → a.values = [.str x.name] → f x = g x) →
      e.2 (h.answering f) a = e.2 (h.answering g) a := by
  simp only [functions, List.forall_mem_cons]
  refine ⟨fun _ _ => rfl, fun _ _ => rfl, fun _ _ => rfl, fun _ _ => rfl, fun a hfg => ?_, fun _ _ => rfl,
    fun _ _ => rfl, fun _ _ => rfl, fun _ _ => rfl, fun _ _ => rfl, fun _ _ => rfl, fun _ _ => rfl, fun _ _ => rfl,
    fun a hfg => ?_, by simp⟩
  · exact Host.lift_bind_congr fun _ hone => Host.lift_bind_congr fun text htext =>
      hfg ⟨.parameters, text⟩ rfl (Args.values_of_exactly hone htext)
  · exact Host.lift_bind_congr fun _ hone => Host.lift_bind_congr fun text htext =>
      hfg ⟨.vars, text⟩ rfl (Args.values_of_exactly hone htext)

end Catalog.Surroundings

theorem Catalog.mem_of_lookup?_asking {name : String} {p : Catalog.Asking σ}
    (hl : Catalog.lookup? σ name = some (.asking p)) : (Name.fold name, p) ∈ Surroundings.functions := by
  unfold lookup? at hl
  dsimp only at hl
  split at hl
  · cases hl
  · split at hl
    · cases hl
    · split at hl
      · rename_i q hq
        cases hl
        exact mem_of_lookup hq
      · split at hl <;> cases hl

namespace Expr

theorem mayGive_of_ne {args : List Expr} (h : ∀ text, args ≠ [.str text]) (name : String) :
    mayGive name args = true := by
  unfold mayGive
  split
  · exact absurd rfl (h _)
  · rfl

/-- A call asks for no name but those that its arguments may give, apart from what these ask for. -/
theorem call_answering (h k : Host σ) {ns : Option String} {name : String} {args : List Expr}
    (hfg : ∀ x : Request, ns = none → Name.fold name = x.table.function → mayGive x.name args = true → f x = g x)
    (span : Span) (scopes : Scopes) :
    Meaning.call (h.answering f) ns name (meanings k args) span scopes =
      Meaning.call (h.answering g) ns name (meanings k args) span scopes := by
  cases ns with
  | some ns => rfl
  | none =>
    unfold Meaning.call
    dsimp only
    cases hl : Catalog.lookup? σ name with
    | none => rfl
    | some entry =>
      cases entry with
      | value p => rfl
      | special form => cases form <;> rfl
      | asking p =>
        have happly := Catalog.Surroundings.functions_answering (f := f) (g := g) h _ (Catalog.mem_of_lookup?_asking hl)
        -- the value of a text that is written out is known; of other arguments nothing is said
        by_cases hargs : ∃ text, args = [.str text]
        · obtain ⟨text, rfl⟩ := hargs
          have hgiven := happly ⟨name, [.str text]⟩ fun x hx htext => by
            cases htext
            exact hfg x rfl hx (beq_self_eq_true _)
          funext s
          exact congrFun hgiven s
        · have hany := mayGive_of_ne fun text htext => hargs ⟨text, htext⟩
          exact bind_congr fun vs => happly ⟨name, vs⟩ fun x hx _ => hfg x rfl hx (hany x.name)

mutual

/-- An expression means the same on hosts that answer alike what it may ask for. -/
theorem meaning_answering (h : Host σ) : (e : Expr) → (∀ x, e.mayAsk x = true → f x = g x) →
    meaning (h.answering f) e = meaning (h.answering g) e
  | .str _, _ => rfl
  | .int _ _, _ => rfl
  | .bool _, _ => rfl
  | .null, _ => rfl
  | .property target _ _, hfg => by
    rw [meaning, meaning, meaning_answering h target hfg]
  | .index target i _, hfg => by
    rw [meaning, meaning, meaning_answering h target fun x hx => hfg x (Bool.or_eq_true_iff.mpr (.inl hx)),
      meaning_answering h i fun x hx => hfg x (Bool.or_eq_true_iff.mpr (.inr hx))]
  | .call ns name args span, hfg => by
    have hargs := meanings_answering h args fun x hx => hfg x (Bool.or_eq_true_iff.mpr (.inr hx))
    have hcall : Meaning.call (h.answering f) ns name (meanings (h.answering g) args) span =
        Meaning.call (h.answering g) ns name (meanings (h.answering g) args) span :=
      funext (call_answering h _ (fun x hns hname hgive => hfg x (by simp [mayAsk, hns, hname, hgive])) span)
    rw [meaning, meaning, hargs, hcall]

theorem meanings_answering (h : Host σ) : (es : List Expr) → (∀ x, anyMayAsk x es = true → f x = g x) →
    meanings (h.answering f) es = meanings (h.answering g) es
  | [], _ => rfl
  | e :: es, hfg => by
    rw [meanings, meanings, meaning_answering h e fun x hx => hfg x (Bool.or_eq_true_iff.mpr (.inl hx)),
      meanings_answering h es fun x hx => hfg x (Bool.or_eq_true_iff.mpr (.inr hx))]

end

end Expr

/-- A string evaluates alike on hosts that answer alike what it may ask for. -/
theorem TemplateString.eval_answering (h : Host σ) {s : String}
    (hfg : TemplateString.AsksOnly (fun x => f x = g x) s) :
    TemplateString.eval (h.answering f) s = TemplateString.eval (h.answering g) s := by
  unfold AsksOnly mayAsk at hfg
  rw [TemplateString.eval_eq, TemplateString.eval_eq]
  cases hp : TemplateString.parse s with
  | error e => rfl
  | ok t =>
    rw [hp] at hfg
    cases t with
    | literal text => rfl
    | expression e => exact congrArg (·.value []) (e.meaning_answering h hfg)

end

variable {S : Discipline ExprError Scope} {T : Discipline ExpandError Scope}

theorem Evaluations.Agree.obeys_of_same {P Q : String → Prop} {E F : Evaluations}
    (h : E.Agree (Accord.same ExpandError Scope) Eq P F) (hF : F.Agree T.alone Eq Q F) :
    E.Agree T.alone Eq (fun s => P s ∧ Q s) E where
  eval {p q} hpq v hv := by
    subst hpq
    have hsame : E.eval p v = F.eval p v := h.eval rfl v fun s hs => (hv s hs).1
    have hobeys : T.Obeys (F.eval p v) := (hF.eval rfl v fun s hs => (hv s hs).2).2
    exact ⟨rfl, hsame ▸ hobeys⟩
  copy {p q} hpq v hv := by
    subst hpq
    have hsame : E.copy p v = F.copy p v := h.copy rfl v fun s hs => (hv s hs).1
    have hobeys : T.Obeys (F.copy p v) := (hF.copy rfl v fun s hs => (hv s hs).2).2
    exact ⟨rfl, hsame ▸ hobeys⟩

namespace Deployment

variable {d : Deployment} {l : Ledger} {C : Callees} {N : Request → Prop} {f g : Request → EvalM Scope Json}

/-- The strings that are evaluated for others: these, and for each that is evaluated those of what it may ask for. -/
inductive ComesTo (d : Deployment) (texts : List String) : String → Prop
  | here {s : String} : s ∈ texts → ComesTo d texts s
  | within {s s' : String} {x : Request} : ComesTo d texts s → TemplateString.mayAsk x s = true →
    s' ∈ (d.origin x).texts → ComesTo d texts s'

/-- Evaluations are the same on hosts that answer alike what may be asked for. -/
theorem evaluations_answering (hfg : ∀ x, N x → f x = g x) (h : Host Scope) :
    (d.evaluations (h.answering f)).Agree (Accord.same ExpandError Scope) Eq (TemplateString.AsksOnly N)
      (d.evaluations (h.answering g)) := by
  have hs : Value.Strings.Agree (Accord.same ExpandError Scope) Eq (TemplateString.AsksOnly N)
      (Value.onHost (h.answering f)) (Value.onHost (h.answering g)) := by
    rintro p q rfl s hasks
    have heval := TemplateString.eval_answering h fun x hx => hfg x (hasks x hx)
    exact Accord.Agree.ite (congrArg (ScopeM.atPlace p) heval) rfl
  exact ⟨fun hpq v hv => Value.agree_eval Accord.same_encloses.toSurrounds hs hpq v hv,
    fun hpq v hv => Value.agree_evalCopy Accord.same_encloses.toSurrounds hs hpq v hv⟩

/-- Where the answers to some requests obey a discipline, others may be answered so that all do. -/
theorem exists_obeys_answer (hS : S.alone.Evaluates) (hf : ∀ x, N x → S.Obeys (f x)) :
    ∃ g : Request → EvalM Scope Json, (∀ x, N x → f x = g x) ∧ ∀ x, S.Obeys (g x) := by
  classical
  refine ⟨fun x => if N x then f x else throw (.unknownVariable x.name), fun x hx => (if_pos hx).symm, fun x => ?_⟩
  dsimp only
  split
  · exact hf x (by assumption)
  · exact (hS.throw rfl).2

/-- Evaluations of strings that call selected functions only obey a discipline if the answers to what they may ask for
do. -/
theorem evaluations_obey (hB : T.alone.Encloses S.alone Eq) (h : d.Accords l l S.alone C) {calls : Nat}
    (hc : ∀ ns name, C.defined ns name → ∀ arguments, S.Obeys (d.callFunction calls ns name arguments))
    (hf : ∀ x, N x → S.Obeys (f x)) :
    (d.evaluations (d.hostBy l calls f)).Agree T.alone Eq
      (fun s => TemplateString.AsksOnly N s ∧ C.Admits s) (d.evaluations (d.hostBy l calls f)) := by
  obtain ⟨g, hfg, hg⟩ := exists_obeys_answer h.evaluates hf
  have hsame := d.evaluations_answering hfg (d.hostBy l calls f)
  have hosts := h.hostBy (fun ns name hn arguments => ⟨rfl, hc ns name hn arguments⟩) fun x => ⟨rfl, hg x⟩
  exact hsame.obeys_of_same (d.evaluations_agree hB hosts)

end Deployment
end ResourceTemplate
