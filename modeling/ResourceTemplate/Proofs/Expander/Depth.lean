import ResourceTemplate.Proofs.Deployment.Depth
import ResourceTemplate.Proofs.Expander.Changes
import ResourceTemplate.Proofs.Expander.Failures
import ResourceTemplate.Proofs.Expander.Nesting

namespace ResourceTemplate

/-- Whether evaluations from a scope end. They do not lack depth, and do the same under all greater bounds on
slots in progress and on calls of functions. -/
def Deployment.EndsFrom (d : Deployment) (s : Scope) : Prop :=
  ∀ (l : Ledger) (i : Inquiry), (outcome (i.on d (d.host l)) s).1 ≠ .error .callDepthExceeded ∧
    ∀ depth calls, d.declared.length < depth → d.template.functions.length < calls →
      outcome (i.on d (d.hostsBy l calls d.request depth)) s = outcome (i.on d (d.host l)) s

def Scope.Idle (s : Scope) : Prop := ∀ x, s.running x = false

theorem Scope.Undisturbed.idle {s t : Scope} (h : s.Undisturbed t) (hs : s.Idle) : t.Idle :=
  fun x => (h.running x).trans (hs x)

theorem Scope.Idle.endsFrom {d : Deployment} (hf : d.template.CallsEnd) {s : Scope} (hs : s.Idle) :
    d.EndsFrom s := by
  intro l i
  have hd : d.OnlyDeclared s := fun x hx => absurd (hs x) (by simp [hx])
  have hends {depth calls : Nat} (hdepth : d.declared.length < depth)
      (hcalls : d.template.functions.length < calls) :=
    Deployment.inquiry_sameWhere (l := l) hf hd hdepth hcalls (fun _ => true) (fun _ _ => rfl) i
  rw [Deployment.inquiry_host hf hd i]
  refine ⟨fun he => ?_, fun depth calls hdepth hcalls => ?_⟩
  · exact (hends (Nat.lt_succ_self _) (Nat.lt_succ_self _)).2 _ he rfl
  · rw [← Deployment.watchedRequest_true]
    exact (hends hdepth hcalls).1

namespace Expander

variable {x : Expander} {nested : Nested} {d : Deployment} {plan : Plan}

/-- The scopes that the expansion of a context evaluates from: where its deployment is created, where a
declaration is tried, where all are settled, and where an evaluation from such a scope leads, at any place,
inside any loops and after any reports. -/
inductive Evaluates (x : Expander) (nested : Nested) (c : Context) (d : Deployment) : Scope → Prop
  | created {s : Scope}
      (h : outcome (Deployment.create c.template x.options c.identity c.values) { log := c.log } = (.ok d, s)) :
      Evaluates x nested c d s
  | tried {plan : Plan} {p q : Progress} {decl : ResourceDeclaration} (hp : x.Prepares c d plan p)
      (ht : Tries x nested d plan plan.order p decl q) : Evaluates x nested c d q.scope
  | settled {plan : Plan} {p q : Progress} (hp : x.Prepares c d plan p)
      (hs : outcome (x.settleAll nested d plan) p = (.ok (), q)) : Evaluates x nested c d q.scope
  | evaluated {s : Scope} (h : Evaluates x nested c d s) (l : Ledger) (i : Inquiry) (pointer : String)
      (loops : List (String × Int)) (diagnostics log : List Diagnostic) :
      Evaluates x nested c d
        (outcome (i.on d (d.host l)) { s with pointer, loops, diagnostics, log }).2

/-- Nothing is in progress where a context is created. -/
theorem idle_created {c : Context} {s : Scope}
    (h : outcome (Deployment.create c.template x.options c.identity c.values) { log := c.log } =
      (.ok d, s)) : s.Idle := by
  have hs := Deployment.obeys_create d.steady_undisturbed.surrounds.lift
    d.steady_undisturbed.surrounds.report c.template x.options c.identity c.values { log := c.log }
  rw [h] at hs
  refine hs.idle fun y => ?_
  obtain ⟨table, key⟩ := y
  cases table <;> rfl

theorem Prepares.idle {c : Context} {p : Progress} (h : x.Prepares c d plan p) : p.scope.Idle := by
  obtain ⟨s, hc, hp⟩ := h
  have hs := prepare_steady d.steady_undisturbed.evalSteady (.start s c.template.resources)
  rw [hp] at hs
  exact hs.idle (idle_created hc)

theorem settle_undisturbed (x : Expander) (nested : Nested) (d : Deployment) (plan : Plan)
    (decl : ResourceDeclaration) :
    (changing (frame_scope d.steady_undisturbed.toFrame) : Discipline ExpandError Progress).Obeys
      (x.settle nested d plan decl) :=
  settle_steady d.steady_undisturbed.evalSteady (fun _ _ => ⟨rfl, rfl, .refl _, .refl _⟩) x nested plan decl

theorem Tries.undisturbed {is : List Nat} {p q : Progress} {decl : ResourceDeclaration}
    (h : Tries x nested d plan is p decl q) : p.scope.Undisturbed q.scope := by
  induction h with
  | @turn before after deferred i p q decl hp hd =>
    have hs := obeys_pass (settle_undisturbed x nested d plan) before p
    rw [hp] at hs
    exact hs
  | @again is deferred p m q decl hp hn h ih =>
    have hs := obeys_pass (settle_undisturbed x nested d plan) is p
    rw [hp] at hs
    exact d.steady_undisturbed.trans _ _ _ hs ih

/-- Nothing is in progress wherever the expansion of a context evaluates from. -/
theorem Evaluates.idle {c : Context} {s : Scope} (h : Evaluates x nested c d s) : s.Idle := by
  induction h with
  | created h => exact idle_created h
  | tried hp ht => exact ht.undisturbed.idle hp.idle
  | @settled plan p q hp hs =>
    have hu := obeys_passes (settle_undisturbed x nested d plan)
      (fun _ _ p => d.steady_undisturbed.refl p.scope) plan.order.length plan.order p
    unfold settleAll at hs
    rw [hs] at hu
    exact hu.idle hp.idle
  | @evaluated s h l i pointer loops diagnostics log ih =>
    have hu := d.steady_undisturbed.inquiry l (d.slotCount + 1) i
      { s with pointer, loops, diagnostics, log }
    exact hu.idle ih

/-- Passes do the same under all bounds that are not less than the number of declarations. -/
theorem outcome_passes_congr {m n : Nat} {is : List Nat} (hm : is.length ≤ m) (hn : is.length ≤ n)
    (p : Progress) :
    outcome (x.passes nested d plan m is) p = outcome (x.passes nested d plan n is) p := by
  induction m generalizing n is p with
  | zero =>
    obtain rfl := List.eq_nil_of_length_eq_zero (Nat.le_zero.mp hm)
    cases n <;> rfl
  | succ m ih =>
    cases is with
    | nil => cases n <;> rfl
    | cons i is =>
      obtain ⟨n, rfl⟩ := Nat.exists_eq_add_one_of_ne_zero (Nat.ne_zero_of_lt hn)
      unfold passes
      rw [outcome_bind, outcome_bind]
      rcases hp : outcome (x.pass nested d plan (i :: is)) p with ⟨e | deferred, q⟩
      · rfl
      · dsimp only
        by_cases hd : deferred.length = is.length + 1
        · -- none was settled, and they end before either bound matters
          simp [if_pos hd, outcome_bind]
        · rw [if_neg hd, if_neg hd]
          have hle := length_pass_le hp
          rw [List.length_cons] at hm hn hle
          exact ih (by omega) (by omega) q

def root (x : Expander) (t : Template) (values : Entries Json) : Context :=
  ⟨t, .root x.options t.scopeLevel, values, []⟩

/-- The contexts that the expansion of one creates, with their depths: itself, and what each of them comes to
unless that would be deeper than the options allow. -/
inductive Creates (x : Expander) (c : Context) : Nat → Context → Prop
  | root : Creates x c 0 c
  | nested {depth : Nat} {parent child : Context} (h : Creates x c depth parent)
      (hd : depth < x.options.maxDepth)
      (hc : Comes x (x.nestedAt (x.options.maxDepth - depth)) parent child) :
      Creates x c (depth + 1) child

namespace Creates

variable {c parent child : Context} {depth : Nat}

/-- A structural failure of a context that is created is that of the whole. -/
theorem fails (h : x.Creates c depth child) {e : ExpandError} {log : List Diagnostic}
    (he : e.isStructural = true)
    (hf : (x.expandWith (x.nestedAt (x.options.maxDepth - depth))).on child = (.error e, log)) :
    (x.expandAt x.options.maxDepth).on c = (.error e, log) := by
  induction h generalizing e log with
  | root =>
    rw [expandAt_eq]
    exact hf
  | @nested depth parent child h hd hc ih =>
    -- the failure becomes that of the parent, whose failure is that of the whole
    refine ih he (expandWith_fails_of_comes hc he ?_)
    have hsucc : x.options.maxDepth - depth = x.options.maxDepth - (depth + 1) + 1 := by omega
    rw [hsucc]
    change (x.expandAt (x.options.maxDepth - (depth + 1))).on child = (.error e, log)
    rw [expandAt_eq]
    exact hf

end Creates

/-- Whether the expansion of a context ends, given the expansion of those nested in it: it asks for those alone
that it comes to, no bound on its passes stops it, and neither does one on its evaluations, as far as functions
of its template do not call themselves. -/
structure Ends (x : Expander) (nested : Nested) (c : Context) : Prop where
  answers : ∀ other : Nested, (∀ child, Comes x nested c child → other.on child = nested.on child) →
    (x.expandWith other).on c = (x.expandWith nested).on c
  passes : ∀ d plan p, x.Prepares c d plan p → ∀ bound, plan.order.length ≤ bound →
    outcome (x.passes nested d plan bound plan.order) p = outcome (x.settleAll nested d plan) p
  evaluations : c.template.CallsEnd → ∀ d s, Evaluates x nested c d s → s.Idle ∧ d.EndsFrom s

theorem Evaluates.template {c : Context} {s : Scope} (h : Evaluates x nested c d s) :
    d.template = c.template := by
  induction h with
  | created h => exact (create_ok h).1
  | tried hp ht =>
    obtain ⟨s, hc, -⟩ := hp
    exact (create_ok hc).1
  | settled hp hs =>
    obtain ⟨s, hc, -⟩ := hp
    exact (create_ok hc).1
  | evaluated h l i pointer loops diagnostics log ih => exact ih

theorem ends (x : Expander) (nested : Nested) (c : Context) : x.Ends nested c where
  answers _ h := expandWith_agree h
  passes _ _ p _ _ hb := outcome_passes_congr hb (Nat.le_refl _) p
  evaluations hf _ _ hs := ⟨hs.idle, hs.idle.endsFrom (hs.template.symm ▸ hf)⟩

end Expander
end ResourceTemplate
