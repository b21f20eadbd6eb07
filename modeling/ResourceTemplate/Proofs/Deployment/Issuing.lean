import ResourceTemplate.Proofs.Deployment.Caching
import ResourceTemplate.Proofs.Deployment.Strings
import ResourceTemplate.Proofs.Outcome
import ResourceTemplate.Proofs.Redaction.Written

namespace ResourceTemplate

theorem Scope.guids_report (s : Scope) (deployment pointer : String) (x : Diagnostic) :
    (s.report deployment pointer x).guids = s.guids := by
  obtain ⟨_, _, hr⟩ := s.report_eq deployment pointer x
  rw [hr]

namespace Deployment

def guidName (d : Deployment) (n : Nat) : String := d.identity.name ++ "/" ++ String.ofList (Integer.natText n)

/-- The names of two identifiers are the same if the deployments have one name and the identifiers one number. -/
theorem guidName_eq_iff {d d' : Deployment} {m n : Nat} :
    d.guidName m = d'.guidName n ↔ d.identity.name = d'.identity.name ∧ m = n := by
  constructor
  · intro h
    have hlist := congrArg (fun s => s.toList.reverse) h
    have hdigit (k : Nat) : ∀ c ∈ (Integer.natText k).reverse, Integer.isDigit c = true := fun c hc =>
      Integer.isDigit_of_mem_natText (List.mem_reverse.mp hc)
    have hslash (name : String) : (('/' :: name.toList.reverse).takeWhile Integer.isDigit) = [] := by
      rw [List.takeWhile_cons_of_neg (by decide)]
    simp only [guidName, String.toList_append, String.toList_ofList, List.reverse_append, List.append_assoc] at hlist
    -- the number is what follows the last slash
    obtain ⟨hnumber, hname⟩ := List.append_inj_of_all (hdigit m) (hdigit n) (hslash _) (hslash _) hlist
    have hname := List.reverse_injective (List.cons.inj hname).2
    exact ⟨String.toList_inj.mp hname, Integer.natText_injective (List.reverse_injective hnumber)⟩
  · rintro ⟨h, rfl⟩
    rw [guidName, guidName, h]

/-- Steps from a scope to another in which identifiers of these names are made, one after another. A step that makes
none keeps their count. -/
inductive Issues (d : Deployment) : Scope → List String → Scope → Prop
  | quiet {s t : Scope} (h : t.guids = s.guids) : Issues d s [] t
  | newGuid (s : Scope) : Issues d s [d.guidName (s.guids + 1)] (d.newGuid s).2
  | append {s t u : Scope} {names more : List String} (h : Issues d s names t) (k : Issues d t more u) :
      Issues d s (names ++ more) u

namespace Issues

variable {d d' : Deployment} {s t u : Scope} {names more : List String}

theorem guids (h : d.Issues s names t) : t.guids = s.guids + names.length := by
  induction h with
  | quiet h => exact h
  | newGuid s => rfl
  | append h k ihh ihk => rw [ihk, ihh, List.length_append, Nat.add_assoc]

theorem eq_map (h : d.Issues s names t) : names = (List.range' (s.guids + 1) names.length).map d.guidName := by
  induction h with
  | quiet h => rfl
  | newGuid s => rfl
  | @append s t u names more h k ihh ihk =>
    rw [List.length_append, ← List.range'_append_1, List.map_append, ← ihh]
    have hnext : s.guids + 1 + names.length = t.guids + 1 := by rw [h.guids]; omega
    rw [hnext, ← ihk]

theorem nodup (h : d.Issues s names t) : names.Nodup := by
  rw [h.eq_map]
  exact (List.nodup_range' 1).map fun m n hmn => (guidName_eq_iff.mp hmn).2

theorem concat (h : d.Issues s names t) (ht : u.guids = t.guids) :
    d.guidName (u.guids + 1) ∉ names ∧ d.Issues s (names ++ [d.guidName (u.guids + 1)]) (d.newGuid u).2 := by
  have hnext : d.Issues s (names ++ [d.guidName (u.guids + 1)]) (d.newGuid u).2 := by
    have hu : d.Issues s (names ++ []) u := h.append (.quiet ht)
    rw [List.append_nil] at hu
    exact hu.append (.newGuid u)
  refine ⟨fun hmem => ?_, hnext⟩
  exact (List.disjoint_of_nodup_append hnext.nodup) hmem (List.mem_singleton_self _)

end Issues

theorem issues_frame (d : Deployment) : Frame fun s t => ∃ names, d.Issues s names t where
  refl _ := ⟨[], .quiet rfl⟩
  trans _ _ _ := fun ⟨_, h⟩ ⟨_, k⟩ => ⟨_, h.append k⟩

theorem exists_issues {d : Deployment} {α : Type} {m : ScopeM α}
    (hm : (changing d.issues_frame : Discipline ExpandError Scope).Obeys m) {s t : Scope}
    {r : Except ExpandError α} (h : outcome m s = (r, t)) : ∃ names, d.Issues s names t := by
  have hs := hm s
  rwa [h] at hs

section
variable {d : Deployment} {R : Scope → Scope → Prop} (hF : Frame R) (hquiet : ∀ s t, t.guids = s.guids → R s t)
  (hnew : ∀ s, R s (d.newGuid s).2)
include hF hquiet

theorem surrounds_of_guids : (changing hF : Discipline ExpandError Scope).Surrounds (changing hF) :=
  hF.surrounds hquiet (fun _ _ _ => rfl) fun s _ _ _ => hquiet s _ (s.guids_report _ _ _)

/-- A request makes the identifiers that the computation of its value makes. -/
theorem request_of_guids {E : Evaluations}
    (heval : ∀ pointer v, (changing hF : Discipline ExpandError Scope).Obeys (E.eval pointer v))
    (hcopy : ∀ pointer v, (changing hF : Discipline ExpandError Scope).Obeys (E.copy pointer v)) (x : Request) :
    (changing hF : Discipline ExprError Scope).Obeys (d.request E x) := by
  have hE : E.Agree (changing hF).alone Eq (fun _ => True) E := by
    constructor
    · rintro p _ rfl v -
      exact ⟨rfl, heval p v⟩
    · rintro p _ rfl v -
      exact ⟨rfl, hcopy p v⟩
  have hanswer := hE.answer (hF.encloses hquiet fun _ _ _ => rfl) (Origin.Near.refl (fun _ => rfl) (d.origin x))
    (fun _ _ => trivial) fun _ => d.definite_origin
  exact request_keeps hF (fun s t h => hquiet s t (congrArg Prod.fst h)) hanswer.2

include hnew

/-- Evaluation keeps a relation that the making of an identifier keeps, if it holds of scopes with the same count. -/
theorem obeys_of_guids (l : Ledger) : d.Obeys l (changing hF) (changing hF) where
  surrounds := surrounds_of_guids hF hquiet
  exhausted := hF.refl
  newGuid := hnew
  remark text s := hquiet s _ (s.guids_report _ _ _)
  resolve view target s := by
    obtain ⟨r, hr | hr⟩ := d.outcome_resolve l view target
    · rw [hr]
      exact hF.refl s
    · rw [hr]
      exact hquiet s _ (s.guids_report _ _ _)
  parameterValue {eval} heval name :=
    request_of_guids hF hquiet (E := ⟨eval, fun _ _ => pure ("", .null)⟩) heval (fun _ _ => .pure _) ⟨.parameters, name⟩
  variableValue {eval evalCopy} heval hcopy name :=
    request_of_guids hF hquiet (E := ⟨eval, evalCopy⟩) heval hcopy ⟨.vars, name⟩

end

variable (d : Deployment)

theorem issues_obeys (l : Ledger) : d.Obeys l (changing d.issues_frame) (changing d.issues_frame) :=
  obeys_of_guids d.issues_frame (fun _ _ h => ⟨[], .quiet h⟩) (fun s => ⟨_, .newGuid s⟩) l

/-- Whatever is evaluated in a deployment, identifiers are made one after another. -/
theorem evalSteady_issues : EvalSteady d fun s t => ∃ names, d.Issues s names t :=
  { d.issues_frame with
    evalObeys := fun l => (d.issues_obeys l).evalObeys
    log := fun _ _ => ⟨[], .quiet rfl⟩ }

end Deployment

theorem Catalog.lookup?_newGuid {σ : Type} {f : String} (hf : Name.same f "newGuid" = true) :
    lookup? σ f = some (.asking Surroundings.newGuid) :=
  (lookup?_congr hf).trans rfl

/-- A call of `newGuid` gives the next identifier of the host. -/
theorem Expr.outcome_newGuid {σ : Type} {h : Host σ} {scopes : Scopes} {f : String} {span : Span}
    (hf : Name.same f "newGuid" = true) (s : σ) :
    outcome (eval h scopes (.call none f [] span)) s = (.ok (.str (h.newGuid s).1), (h.newGuid s).2) := by
  rw [outcome_call_asking (Catalog.lookup?_newGuid hf) outcome_values_nil]
  rfl

/-- Whether a string of a template is a call of `newGuid`, blanks and case apart. -/
def MakesGuid (w : String) : Prop :=
  ∃ f span, TemplateString.parse w = .ok (.expression (.call none f [] span)) ∧ Name.same f "newGuid" = true

def isNewGuid (w : String) : Bool :=
  match TemplateString.parse w with
  | .ok (.expression (.call none f [] _)) => Name.same f "newGuid"
  | _ => false

theorem isNewGuid_iff {w : String} : isNewGuid w = true ↔ MakesGuid w := by
  unfold isNewGuid
  constructor
  · intro h
    split at h
    · rename_i f span hp
      exact ⟨f, span, hp, h⟩
    · cases h
  · rintro ⟨f, span, hp, hf⟩
    rw [hp]
    exact hf

instance (w : String) : Decidable (MakesGuid w) := decidable_of_iff _ isNewGuid_iff

namespace MakesGuid

variable {w : String} (h : MakesGuid w)
include h

theorem head : w.toList.head? = some '[' := by
  obtain ⟨f, span, hp, -⟩ := h
  exact TemplateString.head_of_expression hp

theorem outcome_onHost (host : Host Scope) (pointer : String) (s : Scope) :
    outcome (Value.onHost host pointer w) s =
      (.ok (.str (host.newGuid { s with pointer }).1),
        { (host.newGuid { s with pointer }).2 with pointer := s.pointer }) := by
  have heval : outcome (TemplateString.eval host w) { s with pointer } =
      (.ok (.str (host.newGuid { s with pointer }).1), (host.newGuid { s with pointer }).2) := by
    obtain ⟨f, span, hp, hf⟩ := h
    rw [TemplateString.eval_eq, hp]
    exact Expr.outcome_newGuid hf _
  unfold Value.onHost
  rw [h.head, if_pos (beq_self_eq_true _), ScopeM.outcome_atPlace, heval]
  rfl

theorem outcome_eval (d : Deployment) (l : Ledger) (pointer : String) (s : Scope) :
    outcome (d.eval l pointer (.str w)) s =
      (.ok (.str (Guid.ofName (d.guidName (s.guids + 1)))), (d.newGuid s).2) :=
  h.outcome_onHost (d.host l) pointer s

end MakesGuid
end ResourceTemplate
