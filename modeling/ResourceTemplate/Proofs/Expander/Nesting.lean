import ResourceTemplate.Proofs.Expander.Blocks

namespace ResourceTemplate.Expander

/-- What a deployment is expanded of: its template, where it runs, the values of its caller, and the diagnostics
reported before. -/
structure Context where
  template : Template
  identity : DeploymentIdentity
  values : Entries Json
  log : List Diagnostic

def Nested.on (nested : Nested) (c : Context) : Except ExpandError ExpandedDeployment × List Diagnostic :=
  nested c.template c.identity c.values c.log

/-! Steps that consult nested expansions. -/

variable {σ α β : Type}

/-- Whether a step from a state consults the answers for these contexts. What it does depends on no other
answer, and it fails if one of them is a structural failure, with the diagnostics that this comes with. -/
structure Consults (log : σ → List Diagnostic) (nested : Nested)
    (m : Nested → ExceptT ExpandError (StateM σ) α) (s : σ) (K : Context → Prop) : Prop where
  agree : ∀ other : Nested, (∀ c, K c → other.on c = nested.on c) →
    outcome (m other) s = outcome (m nested) s
  fails : ∀ c, K c → ∀ e log', e.isStructural = true → nested.on c = (.error e, log') →
    (outcome (m nested) s).1 = .error e ∧ log (outcome (m nested) s).2 = log'

namespace Consults

variable {log : σ → List Diagnostic} {nested : Nested} {s : σ} {K : Context → Prop}

theorem none {m : Nested → ExceptT ExpandError (StateM σ) α} (h : ∀ n, m n = m nested) :
    Consults log nested m s fun _ => False :=
  ⟨fun n _ => by rw [h n], fun _ hc => hc.elim⟩

theorem congr {m : Nested → ExceptT ExpandError (StateM σ) α} {K' : Context → Prop}
    (h : Consults log nested m s K) (hK : ∀ c, K' c ↔ K c) : Consults log nested m s K' where
  agree other ha := h.agree other fun c hc => ha c ((hK c).mpr hc)
  fails c hc := h.fails c ((hK c).mp hc)

/-- What a sequence consults: what its first step does, and its second from where the first leads. -/
theorem bind {m : Nested → ExceptT ExpandError (StateM σ) α}
    {f : Nested → α → ExceptT ExpandError (StateM σ) β} {K₂ : α → σ → Context → Prop}
    (hm : Consults log nested m s K)
    (hf : ∀ a t, outcome (m nested) s = (.ok a, t) → Consults log nested (fun n => f n a) t (K₂ a t)) :
    Consults log nested (fun n => m n >>= f n) s fun c =>
      K c ∨ ∃ a t, outcome (m nested) s = (.ok a, t) ∧ K₂ a t c where
  agree other ha := by
    rw [outcome_bind, outcome_bind, hm.agree other fun c hc => ha c (.inl hc)]
    rcases ho : outcome (m nested) s with ⟨e | a, t⟩
    · rfl
    · exact (hf a t ho).agree other fun c hc => ha c (.inr ⟨a, t, ho, hc⟩)
  fails c hc e log' he hn := by
    rw [outcome_bind]
    rcases hc with hc | ⟨a, t, ho, hc⟩
    · obtain ⟨hr, hl⟩ := hm.fails c hc e log' he hn
      generalize outcome (m nested) s = o at hr hl
      obtain ⟨r, t⟩ := o
      cases hr
      exact ⟨rfl, hl⟩
    · rw [ho]
      exact (hf a t ho).fails c hc e log' he hn

/-- A sequence whose second step has no part in nested expansions. -/
theorem first {m : Nested → ExceptT ExpandError (StateM σ) α}
    {f : α → ExceptT ExpandError (StateM σ) β} (hm : Consults log nested m s K) :
    Consults log nested (fun n => m n >>= f) s K :=
  (hm.bind fun a _ _ => none (m := fun _ => f a) fun _ => rfl).congr fun c => by simp

/-- A sequence whose first step has no part in nested expansions. -/
theorem second {m : ExceptT ExpandError (StateM σ) α}
    {f : Nested → α → ExceptT ExpandError (StateM σ) β} {K₂ : α → σ → Context → Prop}
    (hf : ∀ a t, outcome m s = (.ok a, t) → Consults log nested (fun n => f n a) t (K₂ a t)) :
    Consults log nested (fun n => m >>= f n) s fun c => ∃ a t, outcome m s = (.ok a, t) ∧ K₂ a t c :=
  ((none (m := fun _ => m) fun _ => rfl).bind hf).congr fun c => by simp

/-- A sequence whose first step is known to have no part in nested expansions, and where it leads. -/
theorem after {m : ExceptT ExpandError (StateM σ) α}
    {f : Nested → α → ExceptT ExpandError (StateM σ) β} {a : α} {t : σ} (h : outcome m s = (.ok a, t))
    (hf : Consults log nested (fun n => f n a) t K) : Consults log nested (fun n => m >>= f n) s K where
  agree other ha := by
    rw [outcome_bind, outcome_bind, h]
    exact hf.agree other ha
  fails c hc e log' he hn := by
    rw [outcome_bind, h]
    exact hf.fails c hc e log' he hn

theorem lift {r : Except ExpandError α} {f : Nested → α → ScopeM β} {s : Scope}
    {K : α → Context → Prop}
    (hf : ∀ a, r = .ok a → Consults Scope.log nested (fun n => f n a) s (K a)) :
    Consults Scope.log nested (fun n => ScopeM.lift r >>= f n) s fun c => ∃ a, r = .ok a ∧ K a c := by
  cases r with
  | error e => exact (none fun _ => rfl).congr fun c => by simp
  | ok a => exact (after rfl (hf a rfl)).congr fun c => by simp

theorem ifTrue {m : Nested → ExceptT ExpandError (StateM σ) α} {k : ExceptT ExpandError (StateM σ) α}
    (b : Bool) (h : Consults log nested m s K) :
    Consults log nested (fun n => if b then m n else k) s fun c => b = true ∧ K c := by
  cases b with
  | false => exact (none fun _ => rfl).congr fun c => by simp
  | true => exact h.congr fun c => by simp

theorem throw (e : ExpandError) (f : Nested → α → ExceptT ExpandError (StateM σ) β) :
    Consults log nested (fun n => MonadExcept.throw e >>= f n) s fun _ => False where
  agree other _ := by
    rw [outcome_bind, outcome_bind]
    rfl
  fails _ hc := hc.elim

theorem ifNot {P : Prop} [Decidable P] {k m : Nested → ExceptT ExpandError (StateM σ) α}
    (hk : Consults log nested k s fun _ => False) (h : ¬P → Consults log nested m s K) :
    Consults log nested (fun n => if P then k n else m n) s fun c => ¬P ∧ K c := by
  by_cases hP : P
  · simp only [if_pos hP]
    exact hk.congr fun c => by simp [hP]
  · simp only [if_neg hP]
    exact (h hP).congr fun c => by simp [hP]

/-- What a mapped list consults: what each item does, from where those before it lead. -/
theorem mapM {f : Nested → α → ExceptT ExpandError (StateM σ) β} {K : α → σ → Context → Prop}
    (hf : ∀ a t, Consults log nested (fun n => f n a) t (K a t)) (xs : List α) (s : σ) :
    Consults log nested (fun n => xs.mapM (f n)) s fun c => ∃ before a after ys t,
      xs = before ++ a :: after ∧ outcome (before.mapM (f nested)) s = (.ok ys, t) ∧ K a t c := by
  induction xs generalizing s with
  | nil => exact (none fun _ => rfl).congr fun c => by simp
  | cons x xs ih =>
    simp only [List.mapM_cons]
    -- an item that is consulted is the first, or stands after it in the rest
    refine ((hf x s).bind fun y t _ => (ih t).first).congr fun c => ⟨?_, ?_⟩
    · rintro ⟨before, a, after, ys, t, hxs, ho, hc⟩
      cases before with
      | nil =>
        cases hxs
        cases ho
        exact .inl hc
      | cons b before =>
        obtain ⟨rfl, rfl⟩ := List.cons.inj hxs
        rw [List.mapM_cons] at ho
        obtain ⟨y, u, hy, ho⟩ := outcome_bind_eq_ok.mp ho
        obtain ⟨ys, v, hys, ho⟩ := outcome_bind_eq_ok.mp ho
        cases ho
        exact .inr ⟨y, u, hy, before, a, after, ys, t, rfl, hys, hc⟩
    · rintro (hc | ⟨y, u, hy, before, a, after, ys, v, rfl, hys, hc⟩)
      · exact ⟨[], x, xs, [], s, rfl, rfl, hc⟩
      · refine ⟨x :: before, a, after, y :: ys, v, rfl, ?_, hc⟩
        rw [List.mapM_cons]
        exact outcome_bind_eq_ok.mpr ⟨y, u, hy, outcome_bind_eq_ok.mpr ⟨ys, v, hys, rfl⟩⟩

theorem withLoop {m : Nested → ScopeM α} {s : Scope} (name : String) (i : Nat)
    (h : Consults Scope.log nested m { s with loops := (name, (i : Int)) :: s.loops } K) :
    Consults Scope.log nested (fun n => ScopeM.withLoop name i (m n)) s K where
  agree other ha := by
    rw [ScopeM.outcome_withLoop, ScopeM.outcome_withLoop, h.agree other ha]
  fails c hc e log' he hn := by
    rw [ScopeM.outcome_withLoop]
    exact h.fails c hc e log' he hn

theorem onScope {m : Nested → ScopeM α} {p : Progress} (h : Consults Scope.log nested m p.scope K) :
    Consults (fun p => p.scope.log) nested (fun n => ExpandM.onScope (m n)) p K where
  agree other ha := by
    rw [ExpandM.outcome_onScope, ExpandM.outcome_onScope, h.agree other ha]
  fails c hc e log' he hn := by
    rw [ExpandM.outcome_onScope]
    exact h.fails c hc e log' he hn

end Consults

/-! Instances. -/

variable {x : Expander} {nested : Nested} {d : Deployment} {l : Ledger} {dependsOn : List String}
  {decl : ResourceDeclaration}

/-- Whether an instance of a declaration comes, from a scope, to a nested context: it is a deployment that is
not to exist already, its condition holds, its body is evaluated and identifies it, and a template is available
that can be read. -/
inductive InstanceComes (x : Expander) (d : Deployment) (l : Ledger) (decl : ResourceDeclaration)
    (s : Scope) : Context → Prop
  | intro {u v : Scope} {evaluated body : Entries Json} {identity : ResourceIdentity} {template : Json}
      {t : Template} (hd : isDeployment decl = true) (he : decl.existing = false)
      (hc : outcome (holds d l (decl.pointer ++ "/condition") decl.condition) s = (.ok true, u))
      (hv : outcome (d.evalObject l decl.pointer (takeTemplate decl.body).1) u = (.ok evaluated, v))
      (hi : d.identityOf decl evaluated = .ok identity)
      (hb : body = withInline evaluated (takeTemplate decl.body).2)
      (ha : x.availableTemplate body (takeTemplate decl.body).2 = .ok template)
      (ht : Template.ofJson template = .ok t) :
      InstanceComes x d l decl s
        ⟨t, nestedIdentity d.identity identity.name body t.scopeLevel, suppliedBy body, v.log⟩

theorem consults_runNested (nested : Nested) (t : Template) (identity : DeploymentIdentity)
    (values : Entries Json) (s : Scope) :
    Consults Scope.log nested (fun n => runNested n t identity values) s
      fun c => c = ⟨t, identity, values, s.log⟩ where
  agree other ha := by
    have hc := ha _ rfl
    unfold Nested.on at hc
    change runNested other t identity values s = runNested nested t identity values s
    unfold runNested
    rw [hc]
  fails c hc e log' _ hn := by
    subst hc
    unfold Nested.on at hn
    change (runNested nested t identity values s).1 = _ ∧ (runNested nested t identity values s).2.log = _
    unfold runNested
    rw [hn]
    exact ⟨rfl, rfl⟩

theorem consults_expandTemplate (identity : ResourceIdentity) (body : Entries Json) (template : Json)
    (s : Scope) :
    Consults Scope.log nested (fun n => expandTemplate n d identity body template) s fun c =>
      ∃ t, Template.ofJson template = .ok t ∧ c =
        ⟨t, nestedIdentity d.identity identity.name body t.scopeLevel, suppliedBy body, s.log⟩ := by
  unfold expandTemplate
  refine (Consults.second fun t u _ => (consults_runNested nested t _ _ u).first).congr fun c => ?_
  simp

theorem consults_expandNested (identity : ResourceIdentity) (evaluated : Entries Json)
    (inline : Option Json) (s : Scope) :
    Consults Scope.log nested (fun n => x.expandNested n d decl identity evaluated inline) s fun c =>
      ∃ template t, x.availableTemplate (withInline evaluated inline) inline = .ok template ∧
        Template.ofJson template = .ok t ∧ c = ⟨t, nestedIdentity d.identity identity.name
          (withInline evaluated inline) t.scopeLevel, suppliedBy (withInline evaluated inline), s.log⟩ := by
  unfold expandNested
  extract_lets body
  have hbody : withInline evaluated inline = body := by
    unfold body withInline
    cases inline <;> rfl
  rw [hbody]
  obtain ⟨template, ha, ho⟩ | ⟨reason, u, ha, ho⟩ :=
    x.outcome_templateOf d decl identity.name body inline s
  · refine (Consults.after ho (consults_expandTemplate identity body template s).first).congr
      fun c => ?_
    simp [ha]
  · refine (Consults.after ho (.none fun _ => rfl)).congr fun c => ?_
    simp [ha]

theorem consults_expandActive (index : Option Nat) (s : Scope) :
    Consults Scope.log nested (fun n => x.expandActive n d l dependsOn decl index) s fun c =>
      isDeployment decl = true ∧ decl.existing = false ∧ ∃ evaluated u identity template t,
        outcome (d.evalObject l decl.pointer (takeTemplate decl.body).1) s = (.ok evaluated, u) ∧
        d.identityOf decl evaluated = .ok identity ∧
        x.availableTemplate (withInline evaluated (takeTemplate decl.body).2) (takeTemplate decl.body).2 =
          .ok template ∧ Template.ofJson template = .ok t ∧
        c = ⟨t, nestedIdentity d.identity identity.name
          (withInline evaluated (takeTemplate decl.body).2) t.scopeLevel,
          suppliedBy (withInline evaluated (takeTemplate decl.body).2), u.log⟩ := by
  unfold expandActive
  generalize takeTemplate decl.body = taken
  obtain ⟨raw, inline⟩ := taken
  -- nothing is nested in what is no deployment, nor in what is to exist already
  cases hd : isDeployment decl with
  | false =>
    simp only [Bool.false_eq_true, ↓reduceIte]
    exact (Consults.none fun _ => rfl).congr fun c => by simp
  | true =>
    cases he : decl.existing with
    | true =>
      simp only [↓reduceIte]
      exact (Consults.none fun _ => rfl).congr fun c => by simp
    | false =>
      refine (Consults.second fun evaluated u _ => Consults.lift fun identity _ =>
        (consults_expandNested identity evaluated inline u).first).congr fun c => ?_
      simp

theorem consults_expandInstance (index : Option Nat) (s : Scope) :
    Consults Scope.log nested (fun n => x.expandInstance n d l dependsOn decl index) s
      (x.InstanceComes d l decl s) := by
  unfold expandInstance
  refine (Consults.second fun b t _ => .ifTrue b (consults_expandActive index t)).congr
    fun c => ⟨?_, ?_⟩
  · rintro ⟨hd, he, hc, hv, hi, rfl, ha, ht⟩
    exact ⟨true, _, hc, rfl, hd, he, _, _, _, _, _, hv, hi, ha, ht, rfl⟩
  · rintro ⟨_, u, hc, rfl, hd, he, evaluated, v, identity, template, t, hv, hi, ha, ht, rfl⟩
    exact ⟨hd, he, hc, hv, hi, rfl, ha, ht⟩

/-- Whether the instances of a declaration come, from a scope, to a nested context: its only instance does, or
the one at an index of its loop, after those at the indices before. -/
inductive DeclarationComes (x : Expander) (nested : Nested) (d : Deployment) (l : Ledger)
    (dependsOn : List String) (decl : ResourceDeclaration) (s : Scope) (c : Context) : Prop
  | alone (hcopy : decl.copy = none) (h : x.InstanceComes d l decl s c)
  | copied {copy : CopyLoop} {n i : Nat} {u v : Scope} {before after : List Nat}
      {instances : List Instance} (hcopy : decl.copy = some copy)
      (hn : outcome (d.evalCount l (Deployment.countPointer decl) copy.count) s = (.ok n, u))
      (hi : List.range n = before ++ i :: after)
      (hb : outcome (before.mapM fun j => ScopeM.withLoop copy.name j
        (x.expandInstance nested d l dependsOn decl (some j))) u = (.ok instances, v))
      (h : x.InstanceComes d l decl { v with loops := (copy.name, (i : Int)) :: v.loops } c)

theorem consults_expandInstances (s : Scope) :
    Consults Scope.log nested (fun n => x.expandInstances n d l dependsOn decl) s
      (x.DeclarationComes nested d l dependsOn decl s) := by
  unfold expandInstances
  cases hcopy : decl.copy with
  | none =>
    refine (consults_expandInstance none s).first.congr fun c => ⟨?_, fun h => .alone hcopy h⟩
    rintro (⟨-, h⟩ | ⟨hcopied, -⟩)
    · exact h
    · rw [hcopy] at hcopied
      cases hcopied
  | some copy =>
    refine (Consults.second fun n u _ => Consults.mapM (fun i v =>
      (consults_expandInstance (some i) _).withLoop copy.name i) (List.range n) u).congr
        fun c => ⟨?_, ?_⟩
    · rintro (⟨halone, -⟩ | ⟨hcopied, hn, hi, hb, h⟩)
      · rw [hcopy] at halone
        cases halone
      · rw [hcopy] at hcopied
        cases hcopied
        exact ⟨_, _, hn, _, _, _, _, _, hi, hb, h⟩
    · rintro ⟨n, u, hn, before, i, after, instances, v, hi, hb, h⟩
      exact .copied hcopy hn hi hb h

/-! Turns and passes. -/

variable {plan : Plan}

/-- Whether the turn of a declaration comes to a nested context: it can be tried, and its instances do. -/
def TurnComes (x : Expander) (nested : Nested) (d : Deployment) (plan : Plan) (decl : ResourceDeclaration)
    (p : Progress) (c : Context) : Prop :=
  readiness p.ledger (plan.dependenciesOf decl.ordinal) = .ready ∧
    x.DeclarationComes nested d p.ledger (awaitedIds plan p decl) decl p.scope c

def settleAt [Reading] (x : Expander) (nested : Nested) (d : Deployment) (plan : Plan) (ordinal : Nat) :
    ExpandM Bool := do
  match (← get).ledger.declarations[ordinal]? with
  | some decl => x.settle nested d plan decl
  | none => return true

theorem pass_cons [Reading] (x : Expander) (nested : Nested) (d : Deployment) (plan : Plan) (i : Nat)
    (is : List Nat) : x.pass nested d plan (i :: is) = (do
      let settled ← x.settleAt nested d plan i
      let deferred ← x.pass nested d plan is
      return if settled then deferred else i :: deferred) := by
  unfold settleAt
  rw [bind_assoc, pass]
  refine bind_congr fun p => ?_
  cases p.ledger.declarations[i]? <;> rfl

/-- A pass settles what it comes to first, or leaves it before the others that it leaves. -/
theorem outcome_pass_cons [Reading] {x : Expander} {nested : Nested} {d : Deployment} {plan : Plan} {i : Nat}
    {is deferred : List Nat} {settled : Bool} {p m q : Progress}
    (hs : outcome (x.settleAt nested d plan i) p = (.ok settled, m))
    (hp : outcome (x.pass nested d plan is) m = (.ok deferred, q)) :
    outcome (x.pass nested d plan (i :: is)) p = (.ok (if settled then deferred else i :: deferred), q) := by
  rw [pass_cons]
  exact outcome_bind_eq_ok.mpr ⟨settled, m, hs, outcome_bind_eq_ok.mpr ⟨deferred, q, hp, rfl⟩⟩

/-- Whether passes over pending declarations come to the turn of a declaration, and the progress there. -/
inductive Tries (x : Expander) (nested : Nested) (d : Deployment) (plan : Plan) :
    List Nat → Progress → ResourceDeclaration → Progress → Prop
  | turn {before after deferred : List Nat} {i : Nat} {p q : Progress} {decl : ResourceDeclaration}
      (hp : outcome (x.pass nested d plan before) p = (.ok deferred, q))
      (hd : q.ledger.declarations[i]? = some decl) :
      Tries x nested d plan (before ++ i :: after) p decl q
  | again {is deferred : List Nat} {p m q : Progress} {decl : ResourceDeclaration}
      (hp : outcome (x.pass nested d plan is) p = (.ok deferred, m)) (hn : deferred.length ≠ is.length)
      (h : Tries x nested d plan deferred m decl q) : Tries x nested d plan is p decl q

theorem consults_expandDeclaration (p : Progress) :
    Consults (fun p => p.scope.log) nested (fun n => x.expandDeclaration n d plan decl) p
      (x.DeclarationComes nested d p.ledger (awaitedIds plan p decl) decl p.scope) :=
  .after rfl (Consults.onScope (consults_expandInstances p.scope)).first

theorem consults_tryDeclaration (p : Progress) :
    Consults (fun p => p.scope.log) nested (fun n => x.tryDeclaration n d plan decl) p
      (x.DeclarationComes nested d p.ledger (awaitedIds plan p decl) decl p.scope) where
  agree other ha := by
    unfold tryDeclaration
    rw [outcome_bind, outcome_bind, ExpandM.outcome_attempt, ExpandM.outcome_attempt,
      (consults_expandDeclaration p).agree other ha]
  fails c hc e log' he hn := by
    obtain ⟨hr, hl⟩ := (consults_expandDeclaration p).fails c hc e log' he hn
    unfold tryDeclaration
    rw [outcome_bind, ExpandM.outcome_attempt, hr]
    -- only a structural failure is not kept back here
    simp only [he, ↓reduceIte]
    exact ⟨rfl, hl⟩

theorem consults_settle (p : Progress) :
    Consults (fun p => p.scope.log) nested (fun n => x.settle n d plan decl) p
      (x.TurnComes nested d plan decl p) := by
  unfold settle
  refine .after rfl ?_
  cases hr : readiness p.ledger (plan.dependenciesOf decl.ordinal) with
  | ready => exact (consults_tryDeclaration p).congr fun c => by simp [TurnComes, hr]
  | waiting => exact (Consults.none fun _ => rfl).congr fun c => by simp [TurnComes, hr]
  | failed dependency => exact (Consults.none fun _ => rfl).congr fun c => by simp [TurnComes, hr]

theorem consults_settleAt (i : Nat) (p : Progress) :
    Consults (fun p => p.scope.log) nested (fun n => x.settleAt n d plan i) p fun c =>
      ∃ decl, p.ledger.declarations[i]? = some decl ∧ x.TurnComes nested d plan decl p c := by
  unfold settleAt
  refine .after rfl ?_
  cases hd : p.ledger.declarations[i]? with
  | none => exact (Consults.none fun _ => rfl).congr fun c => by simp
  | some decl => exact (consults_settle p).congr fun c => by simp

theorem consults_pass (is : List Nat) (p : Progress) :
    Consults (fun p => p.scope.log) nested (fun n => x.pass n d plan is) p fun c =>
      ∃ before i after deferred q decl, is = before ++ i :: after ∧
        outcome (x.pass nested d plan before) p = (.ok deferred, q) ∧
        q.ledger.declarations[i]? = some decl ∧ x.TurnComes nested d plan decl q c := by
  induction is generalizing p with
  | nil => exact (Consults.none fun _ => rfl).congr fun c => by simp
  | cons i is ih =>
    simp only [pass_cons]
    refine ((consults_settleAt i p).bind fun settled q _ => (ih q).first).congr fun c => ⟨?_, ?_⟩
    · rintro ⟨before, j, after, deferred, q, decl, his, hp, hd, hc⟩
      cases before with
      | nil =>
        cases his
        cases hp
        exact .inl ⟨decl, hd, hc⟩
      | cons k before =>
        obtain ⟨rfl, rfl⟩ := List.cons.inj his
        rw [pass_cons] at hp
        obtain ⟨settled, m, hs, hp⟩ := outcome_bind_eq_ok.mp hp
        obtain ⟨others, u, hp, hr⟩ := outcome_bind_eq_ok.mp hp
        cases hr
        exact .inr ⟨settled, m, hs, before, j, after, others, q, decl, rfl, hp, hd, hc⟩
    · rintro (⟨decl, hd, hc⟩ | ⟨settled, m, hs, before, j, after, others, q, decl, rfl, hp, hd, hc⟩)
      · exact ⟨[], i, is, [], p, decl, rfl, rfl, hd, hc⟩
      · exact ⟨i :: before, j, after, if settled then others else i :: others, q, decl, rfl,
          outcome_pass_cons hs hp, hd, hc⟩

theorem length_pass_le {is deferred : List Nat} {p q : Progress}
    (h : outcome (x.pass nested d plan is) p = (.ok deferred, q)) : deferred.length ≤ is.length := by
  induction is generalizing deferred p with
  | nil =>
    cases h
    exact Nat.le_refl 0
  | cons i is ih =>
    rw [pass_cons] at h
    obtain ⟨settled, m, hs, h⟩ := outcome_bind_eq_ok.mp h
    obtain ⟨others, u, hp, h⟩ := outcome_bind_eq_ok.mp h
    cases h
    have hle := ih hp
    cases settled with
    | true => exact Nat.le_succ_of_le hle
    | false => exact Nat.succ_le_succ hle

theorem tries_cons_iff {i : Nat} {is : List Nat} {p q : Progress} :
    Tries x nested d plan (i :: is) p decl q ↔
      (∃ before j after deferred, i :: is = before ++ j :: after ∧
        outcome (x.pass nested d plan before) p = (.ok deferred, q) ∧
        q.ledger.declarations[j]? = some decl) ∨
      ∃ deferred m, outcome (x.pass nested d plan (i :: is)) p = (.ok deferred, m) ∧
        deferred.length ≠ is.length + 1 ∧ Tries x nested d plan deferred m decl q := by
  constructor
  · intro h
    generalize his : i :: is = js at h
    cases h with
    | turn hp hd => exact .inl ⟨_, _, _, _, rfl, hp, hd⟩
    | again hp hn h =>
      subst his
      exact .inr ⟨_, _, hp, hn, h⟩
  · rintro (⟨before, j, after, deferred, his, hp, hd⟩ | ⟨deferred, m, hp, hn, h⟩)
    · rw [his]
      exact .turn hp hd
    · exact .again hp hn h

theorem not_tries_nil {p q : Progress} : ¬ Tries x nested d plan [] p decl q := by
  intro h
  generalize his : ([] : List Nat) = is at h
  induction h with
  | turn hp hd => simp at his
  | again hp hn h ih =>
    subst his
    cases hp
    exact hn rfl

theorem pass_frame {R : Progress → Progress → Prop} (hR : Frame R) {is : List Nat} {p : Progress}
    (h : ∀ before i after deferred q decl, is = before ++ i :: after →
      outcome (x.pass nested d plan before) p = (.ok deferred, q) → q.ledger.declarations[i]? = some decl →
      R q (outcome (x.settle nested d plan decl) q).2) :
    R p (outcome (x.pass nested d plan is) p).2 := by
  induction is generalizing p with
  | nil => exact hR.refl p
  | cons i is ih =>
    have hfirst : R p (outcome (x.settleAt nested d plan i) p).2 := by
      unfold settleAt
      rw [outcome_bind, outcome_get]
      dsimp only
      cases hd : p.ledger.declarations[i]? with
      | none => exact hR.refl p
      | some decl => exact h [] i is [] p decl rfl rfl hd
    rw [pass_cons, outcome_bind]
    rcases hs : outcome (x.settleAt nested d plan i) p with ⟨e | settled, m⟩
    · rw [hs] at hfirst
      exact hfirst
    · rw [hs] at hfirst
      have hrest : R m (outcome (x.pass nested d plan is) m).2 := by
        refine ih fun before j after deferred q decl his hp hd => ?_
        exact h (i :: before) j after _ q decl (congrArg (i :: ·) his) (outcome_pass_cons hs hp) hd
      dsimp only
      rw [bind_pure_comp, outcome_map]
      exact hR.trans _ _ _ hfirst hrest

theorem passes_frame {R : Progress → Progress → Prop} (hR : Frame R) {fuel : Nat} {is : List Nat} {p : Progress}
    (h : ∀ decl q, Tries x nested d plan is p decl q → R q (outcome (x.settle nested d plan decl) q).2) :
    R p (outcome (x.passes nested d plan fuel is) p).2 := by
  induction fuel generalizing is p with
  | zero => cases is <;> exact hR.refl p
  | succ fuel ih =>
    cases is with
    | nil => exact hR.refl p
    | cons i is =>
      have hpass : R p (outcome (x.pass nested d plan (i :: is)) p).2 :=
        pass_frame hR fun before j after deferred q decl his hp hd => h decl q (his ▸ .turn hp hd)
      unfold passes
      rw [outcome_bind]
      rcases ho : outcome (x.pass nested d plan (i :: is)) p with ⟨e | deferred, m⟩
      · rw [ho] at hpass
        exact hpass
      · rw [ho] at hpass
        dsimp only
        split
        · exact hpass
        · rename_i hn
          exact hR.trans _ _ _ hpass (ih fun decl q ht => h decl q (.again ho hn ht))

theorem consults_passes {fuel : Nat} {is : List Nat} (hf : is.length ≤ fuel) (p : Progress) :
    Consults (fun p => p.scope.log) nested (fun n => x.passes n d plan fuel is) p fun c =>
      ∃ decl q, Tries x nested d plan is p decl q ∧ x.TurnComes nested d plan decl q c := by
  induction fuel generalizing is p with
  | zero =>
    obtain rfl := List.eq_nil_of_length_eq_zero (Nat.le_zero.mp hf)
    exact (Consults.none fun _ => rfl).congr fun c => by simp [not_tries_nil]
  | succ fuel ih =>
    cases is with
    | nil => exact (Consults.none fun _ => rfl).congr fun c => by simp [not_tries_nil]
    | cons i is =>
      unfold passes
      -- a pass that settles none ends them, and any other leaves fewer, for which the bound is enough
      refine ((consults_pass (i :: is) p).bind fun deferred m hp => .ifNot ?_ fun hn => ih ?_ m).congr
        fun c => ⟨?_, ?_⟩
      · exact .after rfl (.throw _ _)
      · have hle := length_pass_le hp
        rw [List.length_cons] at hf hle
        omega
      · rintro ⟨decl, q, ht, hc⟩
        rcases tries_cons_iff.mp ht with ⟨before, j, after, deferred, his, hp, hd⟩ |
          ⟨deferred, m, hp, hn, ht⟩
        · exact .inl ⟨before, j, after, deferred, q, decl, his, hp, hd, hc⟩
        · exact .inr ⟨deferred, m, hp, hn, decl, q, ht, hc⟩
      · rintro (⟨before, j, after, deferred, q, decl, his, hp, hd, hc⟩ |
          ⟨deferred, m, hp, hn, decl, q, ht, hc⟩)
        · exact ⟨decl, q, tries_cons_iff.mpr (.inl ⟨before, j, after, deferred, his, hp, hd⟩), hc⟩
        · exact ⟨decl, q, .again hp hn ht, hc⟩

theorem consults_run (x : Expander) (nested : Nested) (d : Deployment) (p : Progress) :
    Consults (fun p => p.scope.log) nested (fun n => x.run n d) p fun c =>
      ∃ plan p₀, outcome (prepare d) p = (.ok plan, p₀) ∧
        ∃ decl q, Tries x nested d plan plan.order p₀ decl q ∧ x.TurnComes nested d plan decl q c := by
  simp only [run_eq_prepare]
  exact .second fun plan p₀ _ => (consults_passes (Nat.le_refl _) p₀).first

/-! Deployments. -/

/-- Whether the deployment of a context can be created and prepared, with its plan and where it starts. -/
def Prepares (x : Expander) (c : Context) (d : Deployment) (plan : Plan) (p : Progress) : Prop :=
  ∃ s, outcome (Deployment.create c.template x.options c.identity c.values) { log := c.log } = (.ok d, s) ∧
    outcome (prepare d) (.start s c.template.resources) = (.ok plan, p)

/-- Whether the expansion of a context comes to a nested one: at the turn of some declaration. -/
def Comes (x : Expander) (nested : Nested) (c child : Context) : Prop :=
  ∃ d plan p decl q, x.Prepares c d plan p ∧ Tries x nested d plan plan.order p decl q ∧
    x.TurnComes nested d plan decl q child

/-- The expansion of a context depends on no answer but those for the contexts that it comes to. -/
theorem expandWith_agree {other : Nested} {c : Context}
    (h : ∀ child, Comes x nested c child → other.on child = nested.on child) :
    (x.expandWith other).on c = (x.expandWith nested).on c := by
  unfold Nested.on expandWith
  rcases hc : (Deployment.create c.template x.options c.identity c.values).run.run { log := c.log } with
    ⟨e | d, s⟩
  · rfl
  · have hrun : (x.run other d).run.run (.start s c.template.resources) =
        (x.run nested d).run.run (.start s c.template.resources) := by
      refine (consults_run x nested d (.start s c.template.resources)).agree other fun child hk => ?_
      obtain ⟨plan, p, hp, decl, q, ht, hturn⟩ := hk
      exact h child ⟨d, plan, p, decl, q, ⟨s, hc, hp⟩, ht, hturn⟩
    dsimp only
    rw [hrun]

/-- A structural failure of a context that an expansion comes to is its own failure. -/
theorem expandWith_fails_of_comes {c child : Context} {e : ExpandError} {log : List Diagnostic}
    (h : Comes x nested c child) (he : e.isStructural = true) (hn : nested.on child = (.error e, log)) :
    (x.expandWith nested).on c = (.error e, log) := by
  obtain ⟨d, plan, p, decl, q, ⟨s, hc, hp⟩, ht, hturn⟩ := h
  obtain ⟨hr, hl⟩ := (consults_run x nested d (.start s c.template.resources)).fails child
    ⟨plan, p, hp, decl, q, ht, hturn⟩ e log he hn
  have hc' : (Deployment.create c.template x.options c.identity c.values).run.run { log := c.log } =
      (.ok d, s) := hc
  have hr' : (x.run nested d).run.run (.start s c.template.resources) =
      (.error e, (outcome (x.run nested d) (.start s c.template.resources)).2) := Prod.ext hr rfl
  unfold Nested.on expandWith
  rw [hc']
  dsimp only
  rw [hr']
  exact Prod.ext rfl hl

end ResourceTemplate.Expander
