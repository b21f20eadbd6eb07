import ResourceTemplate.Proofs.Deployment.Caching
import ResourceTemplate.Proofs.Deployment.Changes
import ResourceTemplate.Proofs.Deployment.Members
import ResourceTemplate.Proofs.Template.Declarations

namespace ResourceTemplate

section

structure Scope.Fresh (s : Scope) : Prop where
  parameters : s.parameters = []
  vars : s.vars = []
  loops : s.loops = []

namespace Deployment

def alone (d : Deployment) (loops : List (String × Int)) (pointer : String) (v : Json) :
    Except ExpandError Json × Scope :=
  outcome (d.evalOn (d.uncachedAt (d.slotCount + 1)) pointer v) { loops }

/-- Whether a value is evaluated without aid: on its own it makes no identifier and asks for no resource. -/
def NeedsNone (d : Deployment) (loops : List (String × Int)) (pointer : String) (v : Json) : Prop :=
  (d.alone loops pointer v).2.Unaided

instance (d : Deployment) (loops : List (String × Int)) (pointer : String) (v : Json) :
    Decidable (d.NeedsNone loops pointer v) := inferInstanceAs (Decidable (Scope.Unaided _))

/-- A value is evaluated without aid if nothing that it comes to finds resources or makes identifiers: neither its own
strings, nor the variables and defaults that are reached from them, nor the functions that any of these call. -/
theorem NeedsNone.of_comesTo {d : Deployment} {v : Json}
    (h : ∀ s, d.ComesTo v.texts s → d.template.SelfContained (TemplateString.calls s))
    (loops : List (String × Int)) (pointer : String) : d.NeedsNone loops pointer v :=
  unaided_of_comesTo h (d.slotCount + 1) pointer (Scope.unaided_start loops)

/-- A scope inside loops where nothing is in progress, and every value is what a deployment gives that keeps none. -/
structure Ready (d : Deployment) (loops : List (String × Int)) (s : Scope) : Prop where
  coherent : d.Coherent s
  idle : ∀ x, s.running x = false
  loops : s.loops = loops

/-- What evaluation makes of a scope: it is undisturbed, and coherent if it was. -/
def Continues (d : Deployment) (s t : Scope) : Prop := s.Undisturbed t ∧ (d.Coherent s → d.Coherent t)

variable {d : Deployment} {l k : Ledger} {loops : List (String × Int)} {s t : Scope} {p q : String} {v w : Json}

theorem evalSteady_continues (hn : d.template.DistinctNames) : EvalSteady d d.Continues :=
  d.steady_undisturbed.evalSteady.and (evalSteady_coherent hn)

theorem Ready.continues (hs : d.Ready loops s) (h : d.Continues s t) : d.Ready loops t :=
  ⟨h.2 hs.coherent, fun x => (h.1.running x).trans (hs.idle x), h.1.loops.trans hs.loops⟩

/-- A scope in which nothing was evaluated is ready. -/
theorem Ready.of_fresh (h : s.Fresh) : d.Ready [] s where
  coherent x v hx := by
    rw [slot?_of_fresh h.parameters h.vars] at hx
    cases hx
  idle x := Scope.running_of_free (slot?_of_fresh h.parameters h.vars x)
  loops := h.loops

theorem fresh_of_create {t : Template} {o : Options} {identity : DeploymentIdentity} {values : Entries Json}
    {log : List Diagnostic} (h : outcome (create t o identity values) { log } = (.ok d, s)) : s.Fresh := by
  obtain ⟨diagnostics, log', hs⟩ := create_scope t o identity values { log }
  rw [h] at hs
  cases hs
  exact ⟨rfl, rfl, rfl⟩

theorem Ready.inLoops (hs : d.Ready loops s) (entered : List (String × Int)) :
    d.Ready entered { s with loops := entered } := ⟨hs.coherent, hs.idle, rfl⟩

section
variable (hn : d.template.DistinctNames)
include hn

theorem tracks_eval {exact : Prop} (hpq : exact → p = q) (v : Json) :
    d.Tracks exact (d.slotCount + 1) (d.slotCount + 1) (d.eval l p v)
      (d.evalOn (d.uncachedAt (d.slotCount + 1)) q v) :=
  (d.evaluations_agree caching.encloses (follows hn (d.slotCount + 1) exact (d.slotCount + 1))).eval hpq v
    fun _ _ => Callees.cover_all _

namespace Ready

variable (hs : d.Ready loops s) (hu : d.NeedsNone loops q v)
include hs hu

/-- A value that is evaluated at any place is evaluated so on its own. -/
theorem alone_ok (h : (outcome (d.eval l p v) s).1 = .ok w) : (d.alone loops q v).1 = .ok w := by
  have htracks : d.Tracks False _ _ (d.eval l p v) _ := tracks_eval hn (q := q) False.elim v
  exact htracks.ok hs.coherent (uncached_start loops) hs.loops.symm (.of_idle (running_start loops))
    (free_declared_lt _) hu w h

/-- A value that cannot be evaluated at a place fails alike on its own. -/
theorem alone_error {e : ExpandError} (h : (outcome (d.eval l q v) s).1 = .error e) :
    (d.alone loops q v).1 = .error e := by
  have htracks : d.Tracks True _ _ (d.eval l q v) _ := tracks_eval hn (fun _ => rfl) v
  exact htracks.error trivial hs.coherent (uncached_start loops) hs.loops.symm (.of_idle (running_start loops))
    (free_declared_lt _) hu (fun x => (running_start loops x).trans (hs.idle x).symm) (free_declared_lt _) e h

/-- What is evaluated on its own is evaluated so wherever nothing is in progress. -/
theorem eval_of_alone (h : (d.alone loops q v).1 = .ok w) : (outcome (d.eval l q v) s).1 = .ok w := by
  cases hr : (outcome (d.eval l q v) s).1 with
  | ok x => rw [← h, hs.alone_ok hn hu hr]
  | error e =>
    rw [hs.alone_error hn hu hr] at h
    cases h

/-- A count that is evaluated once is evaluated so at other times. -/
theorem evalCount_of {n : Nat} {u : Scope} (ht : d.Ready loops t)
    (h : outcome (d.evalCount l q v) s = (.ok n, u)) : (outcome (d.evalCount k q v) t).1 = .ok n := by
  obtain ⟨x, u', hx, hcount⟩ := outcome_bind_eq_ok.mp h
  obtain ⟨hcount, -⟩ := Prod.mk.inj hcount
  have hx' : (outcome (d.eval k q v) t).1 = .ok x :=
    ht.eval_of_alone hn hu (hs.alone_ok hn hu (congrArg Prod.fst hx))
  have hsame : outcome (d.evalCount k q v) t = (.ok n, (outcome (d.eval k q v) t).2) :=
    outcome_bind_eq_ok.mpr ⟨x, _, Prod.ext hx' rfl, Prod.ext hcount rfl⟩
  rw [hsame]

end Ready
end
end Deployment
end

namespace ResourceDeclaration

/-- Whether no key of a declaration is computed. As everywhere in JSON data, the keys of an object differ. -/
structure PlainKeys (decl : ResourceDeclaration) : Prop where
  nodup : decl.body.keys.Nodup
  literal : ∀ key ∈ decl.body.keys, Expr.isExpression key = false

instance (decl : ResourceDeclaration) : Decidable decl.PlainKeys :=
  decidable_of_iff (_ ∧ _) ⟨fun h => ⟨h.1, h.2⟩, fun h => ⟨h.nodup, h.literal⟩⟩

/-- The keys of a declaration that was read stand for themselves if none is computed. -/
theorem PlainKeys.hasLiteralKeys {decl : ResourceDeclaration} (h : decl.PlainKeys) (hu : Template.Unsteered decl) :
    Value.HasLiteralKeys decl.body := by
  intro key hk
  refine ⟨h.literal key hk, ?_⟩
  have hsteers : Template.isDeclarationKey key = false := hu key hk
  have hcopy : Name.same "copy" key = false := by
    simp only [Template.isDeclarationKey, Template.declarationKeys, List.any_cons, Bool.or_eq_false_iff] at hsteers
    exact hsteers.1
  rwa [Name.same_comm]

end ResourceDeclaration

namespace Deployment

variable {d : Deployment} {l k : Ledger} {decl : ResourceDeclaration} {loops : List (String × Int)} {s t : Scope}
  {pointer : String} {members body body' : Entries Json} {r : ResourceIdentity}

/-- Whether the identity of the instance at an index needs no aid: on their own, neither the count of the loop nor a
member that an identity is read off makes an identifier or asks for a resource, nor does a variable, default or function
that they come to. -/
structure IdentityNeedsNone (d : Deployment) (decl : ResourceDeclaration) (i : Nat) : Prop where
  count : ∀ copy, decl.copy = some copy → d.NeedsNone [] (countPointer decl) copy.count
  member : ∀ key ∈ identityKeys, ∀ v, Entries.getNamed? decl.body key = some v →
    d.NeedsNone (decl.loopsAt i) (decl.pointer ++ "/" ++ key) v

instance (d : Deployment) (decl : ResourceDeclaration) (i : Nat) : Decidable (d.IdentityNeedsNone decl i) :=
  decidable_of_iff (_ ∧ _) ⟨fun h => ⟨h.1, h.2⟩, fun h => ⟨h.count, h.member⟩⟩

/-- An identity needs no aid if nothing that its members and the count come to, by variables, defaults and functions,
finds resources or makes identifiers. -/
theorem IdentityNeedsNone.of_comesTo
    (hcount : ∀ copy, decl.copy = some copy → ∀ s, d.ComesTo copy.count.texts s →
      d.template.SelfContained (TemplateString.calls s))
    (hmember : ∀ key ∈ identityKeys, ∀ v, Entries.getNamed? decl.body key = some v → ∀ s, d.ComesTo v.texts s →
      d.template.SelfContained (TemplateString.calls s)) (i : Nat) : d.IdentityNeedsNone decl i where
  count copy hc := .of_comesTo (hcount copy hc) _ _
  member key hk v hv := .of_comesTo (hmember key hk v hv) _ _

theorem head_of_mem_identityKeys {key : String} (h : key ∈ identityKeys) : key.toList.head? ≠ some '[' := by
  have hall : ∀ key ∈ identityKeys, key.toList.head? ≠ some '[' := by decide
  exact hall key h

theorem mem_identityMembers {e : String × Json} :
    e ∈ identityMembers decl ↔ e.1 ∈ identityKeys ∧ Entries.getNamed? decl.body e.1 = some e.2 := by
  unfold identityMembers
  rw [List.mem_filterMap]
  constructor
  · rintro ⟨key, hk, he⟩
    obtain ⟨v, hv, rfl⟩ := Option.map_eq_some_iff.mp he
    exact ⟨hk, hv⟩
  · rintro ⟨hk, hv⟩
    exact ⟨e.1, hk, by rw [hv]; rfl⟩

theorem nodup_identityMembers (decl : ResourceDeclaration) : (identityMembers decl).keys.Nodup := by
  have hsub (keys : List String) : (Entries.keys (keys.filterMap fun key =>
      (Entries.getNamed? decl.body key).map fun v => (key, v))).Sublist keys := by
    induction keys with
    | nil => exact .slnil
    | cons key keys ih =>
      rw [List.filterMap_cons]
      cases Entries.getNamed? decl.body key with
      | none => exact ih.cons key
      | some v => exact ih.cons_cons key
  have hkeys : identityKeys.Nodup := by decide
  exact hkeys.sublist (hsub identityKeys)

theorem literal_identityMembers (decl : ResourceDeclaration) : Value.HasLiteralKeys (identityMembers decl) := by
  have hkeys : ∀ key ∈ identityKeys, Expr.isExpression key = false ∧ Name.same key "copy" = false := by decide
  intro key hk
  obtain ⟨e, he, rfl⟩ := List.mem_map.mp hk
  exact hkeys e.1 (mem_identityMembers.mp he).1

theorem getNamed?_identityMembers {key : String} (hk : key ∈ identityKeys) :
    (identityMembers decl).getNamed? key = Entries.getNamed? decl.body key := by
  cases hv : Entries.getNamed? decl.body key with
  | some v =>
    have hmem : (key, v) ∈ identityMembers decl := mem_identityMembers.mpr ⟨hk, hv⟩
    exact Entries.getNamed?_of_get? (Entries.get?_of_mem (nodup_identityMembers decl) hmem)
  | none =>
    cases hm : (identityMembers decl).getNamed? key with
    | none => rfl
    | some w =>
      -- the member under another spelling would be that of another key
      obtain ⟨key', hmem, hfold⟩ := Entries.exists_of_getNamed? hm
      obtain ⟨hk', hw⟩ := mem_identityMembers.mp hmem
      have hinj : ∀ a ∈ identityKeys, ∀ b ∈ identityKeys, Name.fold a = Name.fold b → a = b := by decide
      obtain rfl := hinj key' hk' key hk hfold
      rw [hv] at hw
      cases hw

theorem identityOf_congr (h : ∀ key ∈ identityKeys, body.getNamed? key = body'.getNamed? key) :
    d.identityOf decl body = d.identityOf decl body' := by
  simp only [identityKeys, List.forall_mem_cons] at h
  obtain ⟨htype, hname, hscope, hgroup, hsub, -⟩ := h
  simp only [identityOf, identityText, htype, hname, hscope, hgroup, hsub]

/-- Whether what an identity is read off in an evaluated body is what the members are evaluated to on their own. -/
def HasOwn (d : Deployment) (loops : List (String × Int)) (pointer : String) (members body : Entries Json) : Prop :=
  ∀ key ∈ identityKeys, Option.Rel (fun v w => (d.alone loops (pointer ++ "/" ++ key) v).1 = .ok w)
    (members.getNamed? key) (body.getNamed? key)

/-- Two bodies with what the same members are evaluated to on their own give the same identity. -/
theorem HasOwn.identityOf_eq (h : d.HasOwn loops pointer members body) (h' : d.HasOwn loops pointer members body') :
    d.identityOf decl body = d.identityOf decl body' := by
  refine identityOf_congr fun key hk => ?_
  have hv := h key hk
  have hv' := h' key hk
  generalize members.getNamed? key = m at hv hv'
  generalize body.getNamed? key = x at hv
  generalize body'.getNamed? key = y at hv'
  cases hv with
  | none =>
    cases hv'
    rfl
  | some hx =>
    cases hv' with
    | some hy => exact congrArg some (Except.ok.inj (hx.symm.trans hy))

section
variable (hn : d.template.DistinctNames) (hs : d.Ready loops s)
include hn hs

/-- What is evaluated of an object where nothing is in progress has what its members are evaluated to on their own. -/
theorem Ready.hasOwn (hm : Value.HasLiteralKeys members) (hnodup : members.keys.Nodup)
    (hu : ∀ key ∈ identityKeys, ∀ v, members.getNamed? key = some v → d.NeedsNone loops (pointer ++ "/" ++ key) v)
    (h : outcome (d.evalObject l pointer members) s = (.ok body, t)) : d.HasOwn loops pointer members body := by
  intro key hk
  have hrel := Value.getNamed?_evalMembers (evalSteady_continues hn).toFrame
    (fun p v => ((evalSteady_continues hn).evalObeys l).eval p v) hm hnodup h (head_of_mem_identityKeys hk)
  have huk := hu key hk
  generalize members.getNamed? key = m at hrel huk
  generalize body.getNamed? key = x at hrel
  cases hrel with
  | none => exact .none
  | some hv =>
    obtain ⟨key', u, u', hc, hv⟩ := hv
    exact .some ((hs.continues hc).alone_ok hn (huk _ rfl) (congrArg Prod.fst hv))

/-- The members that an identity needs can be evaluated where they can be on their own, and give the same identity. -/
theorem Ready.previewIdentity_eq (hu : ∀ key ∈ identityKeys, ∀ v, Entries.getNamed? decl.body key = some v →
      d.NeedsNone loops (decl.pointer ++ "/" ++ key) v)
    (hown : d.HasOwn loops decl.pointer decl.body body) (hid : d.identityOf decl body = .ok r) :
    (outcome (d.previewIdentity l decl) s).1 = .ok (some r) := by
  have hstep (e : String × Json) (he : e ∈ identityMembers decl) (u : Scope) (hr : d.Ready loops u) :
      ∃ x u', outcome (d.eval l (decl.pointer ++ "/" ++ e.1) e.2) u = (.ok x, u') ∧ d.Ready loops u' := by
    obtain ⟨hk, hv⟩ := mem_identityMembers.mp he
    have hrel := hown e.1 hk
    have huk := hu e.1 hk e.2 hv
    rw [hv] at hrel
    generalize body.getNamed? e.1 = x at hrel
    cases hrel with
    | some hx =>
      have hc : d.Continues u (outcome (d.eval l (decl.pointer ++ "/" ++ e.1) e.2) u).2 :=
        ((evalSteady_continues hn).evalObeys l).eval _ _ u
      exact ⟨_, _, Prod.ext (hr.eval_of_alone hn huk hx) rfl, hr.continues hc⟩
  obtain ⟨body', t, hbody⟩ : ∃ body' t,
      outcome (d.evalObject l decl.pointer (identityMembers decl)) s = (.ok body', t) :=
    Value.evalMembers_ok (literal_identityMembers decl) hstep hs
  have hown' : d.HasOwn loops decl.pointer decl.body body' := by
    have hself := hs.hasOwn hn (literal_identityMembers decl) (nodup_identityMembers decl)
      (fun key hk v hv => hu key hk v (getNamed?_identityMembers hk ▸ hv)) hbody
    exact fun key hk => getNamed?_identityMembers hk ▸ hself key hk
  have hid' : d.identityOf decl body' = .ok r := (hown'.identityOf_eq hown).trans hid
  unfold previewIdentity
  rw [outcome_bind, ScopeM.outcome_attempt, hbody, ExpandError.caught_ok]
  dsimp only
  rw [hid']
  rfl

/-- An identity that is previewed is read off what the members are evaluated to on their own. -/
theorem Ready.exists_hasOwn (hu : ∀ key ∈ identityKeys, ∀ v, Entries.getNamed? decl.body key = some v →
      d.NeedsNone loops (decl.pointer ++ "/" ++ key) v)
    (h : outcome (d.previewIdentity l decl) s = (.ok (some r), t)) :
    ∃ body, d.HasOwn loops decl.pointer decl.body body ∧ d.identityOf decl body = .ok r := by
  unfold previewIdentity at h
  obtain ⟨x, u, hx, h⟩ := outcome_bind_eq_ok.mp h
  rw [ScopeM.outcome_attempt] at hx
  have hx := ExpandError.caught_eq_ok (Prod.mk.inj hx).1
  cases x with
  | error e => cases h
  | ok body =>
    have hself := hs.hasOwn hn (literal_identityMembers decl) (nodup_identityMembers decl)
      (fun key hk v hv => hu key hk v (getNamed?_identityMembers hk ▸ hv)) (Prod.ext hx.symm rfl)
    refine ⟨body, fun key hk => getNamed?_identityMembers hk ▸ hself key hk, ?_⟩
    exact toOption_eq_some.mp (Except.ok.inj (Prod.mk.inj h).1)

end

theorem Ready.atIndex (hs : d.Ready [] s) (decl : ResourceDeclaration) (i : Nat) :
    d.Ready (decl.loopsAt i) { s with loops := decl.loopsAt i ++ s.loops } := by
  rw [hs.loops, List.append_nil]
  exact hs.inLoops _

section
variable (hn : d.template.DistinctNames) (hs : d.Ready [] s)
include hn hs

theorem Ready.instanceCount_of (ht : d.Ready [] t) {i n : Nat} (hu : d.IdentityNeedsNone decl i) {u : Scope}
    (h : outcome (d.instanceCount l decl) s = (.ok n, u)) : (outcome (d.instanceCount k decl) t).1 = .ok n := by
  unfold instanceCount at h ⊢
  cases hcopy : decl.copy with
  | none =>
    rw [hcopy] at h
    cases h
    rfl
  | some copy =>
    rw [hcopy] at h
    exact hs.evalCount_of hn (hu.count copy hcopy) ht h

/-- At an index of the count the identity is previewed that what the members are on their own gives. -/
theorem Ready.getElem?_previews {i n : Nat} (hu : d.IdentityNeedsNone decl i)
    (hcount : (outcome (d.instanceCount l decl) s).1 = .ok n) (hi : i < n)
    (hown : d.HasOwn (decl.loopsAt i) decl.pointer decl.body body) (hid : d.identityOf decl body = .ok r)
    {previews : List (Option ResourceIdentity)} (h : outcome (d.previews l decl) s = (.ok previews, t)) :
    previews[i]? = some (some r) := by
  obtain ⟨r', u, v, hget, hc, hr⟩ := previews_at (evalSteady_continues hn) h hcount hi
  obtain ⟨w, hr⟩ := ResourceDeclaration.exists_of_inLoop hr
  have hpreview := ((hs.continues hc).atIndex decl i).previewIdentity_eq (l := l) hn hu.member hown hid
  rw [hr] at hpreview
  rw [hget, Except.ok.inj hpreview]

end
end Deployment
end ResourceTemplate
