import ResourceTemplate.Proofs.Expander.Bindings
import ResourceTemplate.Proofs.Expander.References
import ResourceTemplate.Proofs.Outcome
import ResourceTemplate.Proofs.Text.Pieces

namespace ResourceTemplate

theorem Number.toInt64?_le {x : Number} {i : Int} (h : x.toInt64? = some i) :
    i ≤ Integer.maxInt64 := by
  unfold toInt64? at h
  split at h
  · unfold inRange? at h
    split at h
    · rename_i hr
      cases h
      exact hr.2
    · cases h
  · cases h

theorem Value.count_ok {maxCount : Nat} {pointer : String} {v : Json} {n : Nat}
    (h : Value.count maxCount pointer v = .ok n) : n ≤ Integer.maxInt64 := by
  unfold Value.count at h
  cases hi : v.int64? with
  | none =>
    rw [hi] at h
    cases h
  | some i =>
    have hle : i ≤ Integer.maxInt64 := by
      unfold Json.int64? at hi
      split at hi
      · exact Number.toInt64?_le hi
      · cases hi
    simp only [hi] at h
    split at h
    · cases h
      omega
    · cases h

theorem Deployment.yields_evalCount (d : Deployment) (l : Ledger) (pointer : String) (v : Json) :
    Yields (d.evalCount l pointer v) (· ≤ Integer.maxInt64) := by
  unfold Deployment.evalCount Value.evalCount
  exact .after fun w => ScopeM.yields_lift fun n hn => Value.count_ok hn

/-- What is mapped at a place stands behind all that is mapped before it. -/
theorem getElem?_filterMap {α β : Type} {f : α → Option β} {xs : List α} {i : Nat} {a : α} {b : β}
    (ha : xs[i]? = some a) (hb : f a = some b) :
    (xs.filterMap f)[((xs.take i).filterMap f).length]? = some b := by
  induction xs generalizing i with
  | nil => cases ha
  | cons y ys ih =>
    cases i with
    | zero =>
      cases ha
      simp [hb]
    | succ i =>
      rw [List.getElem?_cons_succ] at ha
      rw [List.take_succ_cons]
      cases hy : f y with
      | none =>
        rw [List.filterMap_cons_none hy, List.filterMap_cons_none hy]
        exact ih ha
      | some c =>
        rw [List.filterMap_cons_some hy, List.filterMap_cons_some hy, List.length_cons,
          List.getElem?_cons_succ]
        exact ih ha

theorem length_filterMap_of_forall {α β : Type} {f : α → Option β} {xs : List α}
    (h : ∀ a ∈ xs, ∃ b, f a = some b) : (xs.filterMap f).length = xs.length := by
  rw [List.filterMap_length_eq_length]
  intro a ha
  obtain ⟨b, hb⟩ := h a ha
  rw [hb]
  rfl

namespace Instance

/-- Whether an instance stands at an index of a loop. One whose condition is false does not tell. -/
def At (i : Nat) : Instance → Prop
  | .emitted r _ => r.copyIndex = some (i : Int)
  | .existing r => r.copyIndex = some (i : Int)
  | .skipped _ => True

end Instance

namespace SymbolTable

/-- Whether an index of a symbol leads to an id, given as such or behind the name. -/
def Finds (t : SymbolTable) (symbol : String) (i : Nat) (id : String) : Prop :=
  t.getId symbol (some i) = .ok (some id) ∧
    ('[' ∉ symbol.toList → t.lookup (indexed symbol i) = .ok (some id))

/-- An index of an array leads to the id that was bound at that place. -/
theorem finds_of_getIds {t : SymbolTable} {symbol id : String} {i : Nat}
    (hs : ∃ s, t.find? symbol = some s ∧ s.kind = .array) (hi : (t.getIds symbol)[i]? = some id)
    (hle : i ≤ Integer.maxNat64) : t.Finds symbol i id := by
  have hget : t.getId symbol (some i) = .ok (some id) := by
    obtain ⟨s, hs, hk⟩ := hs
    unfold getIds at hi
    unfold getId
    rw [hs] at hi ⊢
    cases s with
    | object name bound => cases hk
    | array name ids =>
      change ids[i]? = some id at hi
      cases ids with
      | nil => simp at hi
      | cons first ids => simp [DeploymentSymbol.getId, hi]
  refine ⟨hget, fun hn => ?_⟩
  unfold lookup
  rw [splitIndexed?_indexed hn hle]
  exact hget

end SymbolTable

/-- A symbol that one declaration binds has the ids of that declaration alone. -/
theorem History.boundIds_only {h : History} {name : String} {o : Nat}
    (hn : ∀ e ∈ h, e.ordinal ≠ o → e.declaration.binds name = false) :
    h.boundIds name = (h.only o).boundIds name := by
  induction h with
  | nil => rfl
  | cons e h ih =>
    obtain ⟨he, hh⟩ := List.forall_mem_cons.mp hn
    have hcons (k : History) : boundIds (e :: k) name =
        e.declaration.boundIds name e.instances ++ k.boundIds name := rfl
    by_cases ho : e.ordinal = o
    · rw [only, List.filter_cons_of_pos (by simp [ho]), hcons, hcons, ih hh, only]
    · rw [only, List.filter_cons_of_neg (by simp [ho]), hcons, ih hh, only]
      rw [ResourceDeclaration.boundIds, if_neg (Bool.eq_false_iff.mp (he ho)), List.nil_append]

namespace Expander

variable {x : Expander} {nested : Nested} {d : Deployment} {plan : Plan} {p₀ : Progress}

theorem yields_expandActive_at (l : Ledger) (dependsOn : List String) (decl : ResourceDeclaration)
    (i : Nat) : Yields (x.expandActive nested d l dependsOn decl (some i)) (Instance.At i) := by
  unfold expandActive
  refine .after fun body => .after fun identity => ?_
  dsimp only
  split
  · exact .pure rfl
  · split
    · exact .after fun y => .after fun s => .pure rfl
    · exact .after fun y => .after fun s => .pure rfl

theorem yields_expandInstance_at (l : Ledger) (dependsOn : List String) (decl : ResourceDeclaration)
    (i : Nat) : Yields (x.expandInstance nested d l dependsOn decl (some i)) (Instance.At i) := by
  unfold expandInstance
  refine .after fun holds => ?_
  cases holds with
  | true => exact yields_expandActive_at l dependsOn decl i
  | false => exact .after fun identity => .pure trivial

/-- The instances of a loop: as many as its count says, each what the declaration becomes at its index,
from some scope. -/
structure Iterated (x : Expander) (nested : Nested) (d : Deployment) (l : Ledger)
    (dependsOn : List String) (decl : ResourceDeclaration) (copy : CopyLoop)
    (instances : List Instance) : Prop where
  count : ∃ s t, outcome (d.evalCount l (Deployment.countPointer decl) copy.count) s =
    (.ok instances.length, t)
  bound : instances.length ≤ Integer.maxInt64
  instance_at : ∀ i inst, instances[i]? = some inst → inst.At i ∧ ∃ s t,
    outcome (ScopeM.withLoop copy.name i (x.expandInstance nested d l dependsOn decl (some i))) s =
      (.ok inst, t)

/-- The instances that an attempt at a loop gives are those of its indices. -/
theorem iterated_of_attempt {decl : ResourceDeclaration} {copy : CopyLoop} {p : Progress}
    {instances : List Instance} {s : Scope} (hcopy : decl.copy = some copy)
    (ha : x.attempt nested d plan decl p = (.ok instances, s)) :
    Iterated x nested d p.ledger (awaitedIds plan p decl) decl copy instances := by
  unfold attempt expandInstances at ha
  rw [hcopy] at ha
  obtain ⟨n, t, hn, hm⟩ := outcome_bind_eq_ok.mp ha
  have hf := outcome_mapM_ok hm
  have hlen : n = instances.length := by simpa using hf.length_eq
  subst hlen
  refine ⟨⟨_, t, hn⟩, d.yields_evalCount _ _ _ _ _ _ hn, ?_⟩
  intro i inst hi
  have hlt : i < instances.length := (List.getElem?_eq_some_iff.mp hi).1
  obtain ⟨s', t', ho⟩ : ∃ s t, outcome (ScopeM.withLoop copy.name i
      (x.expandInstance nested d p.ledger (awaitedIds plan p decl) decl (some i))) s =
        (.ok inst, t) := by
    have h := hf.get (i := i) (by simpa using hlt) hlt
    simpa [(List.getElem?_eq_some_iff.mp hi).2] using h
  exact ⟨ScopeM.yields_withLoop (yields_expandInstance_at _ _ decl i) copy.name i _ _ _ ho,
    s', t', ho⟩

/-- The symbol of a loop has what the loop's instances bind, if no other declaration binds it. -/
theorem Reached.getIds_iterated {h : History} {p : Progress} {decl : ResourceDeclaration}
    {instances : List Instance} {symbol : String} (h₀ : Unsettled d p₀)
    (hr : Reached x nested d plan p₀ h p) (hc : .committed decl instances ∈ h)
    (hcopy : decl.copy.isSome) (hs : decl.symbol? = some symbol)
    (hone : ∀ other ∈ d.template.resources, other.binds symbol → other = decl) :
    p.ledger.symbols.getIds symbol = instances.filterMap (Instance.boundId? true) := by
  have hrec := hr.recorded h₀
  have hbinds : decl.binds symbol = true := by simp [ResourceDeclaration.binds, hs]
  have honly : h.only decl.ordinal = [.committed decl instances] := hrec.only_of_mem hc
  rw [hr.getIds h₀, History.boundIds_only (o := decl.ordinal), honly]
  · simp [History.boundIds, ResourceDeclaration.boundIds, hbinds, hcopy]
  · intro e he ho
    rw [Bool.eq_false_iff]
    intro hb
    exact ho (congrArg ResourceDeclaration.ordinal (hone e.declaration (hrec.declared e he) hb))

theorem Reached.array_of_committed {h : History} {p : Progress} {decl : ResourceDeclaration}
    {instances : List Instance} {symbol : String} (h₀ : Unsettled d p₀)
    (hr : Reached x nested d plan p₀ h p) (hc : .committed decl instances ∈ h)
    (hcopy : decl.copy.isSome) (hs : decl.symbol? = some symbol) :
    ∃ a, p.ledger.symbols.find? symbol = some a ∧ a.kind = .array := by
  have hd := (hr.recorded h₀).declared _ hc
  rw [← (hr.recorded h₀).declarations] at hd
  simpa [hcopy] using (hr.grounded h₀).declared decl hd symbol hs

/-- A loop that is committed and alone binds its symbol has bound it to the ids of its instances in the
order of their indices. An instance whose condition is false and whose identity cannot be evaluated has no
id; the index of each instance after it leads to a later instance. If every instance has an id, the symbol
has as many ids as the loop's count, and every index leads to the instance at that index. -/
theorem Reached.iteration {v : Json} {s : Scope} {h : History} {p : Progress}
    {decl : ResourceDeclaration} {copy : CopyLoop} {symbol : String} {instances : List Instance}
    (ht : Template.ofJson v = .ok d.template)
    (h₀ : outcome (prepare d) (.start s d.template.resources) = (.ok plan, p₀))
    (hr : Reached x nested d plan p₀ h p) (hc : .committed decl instances ∈ h)
    (hcopy : decl.copy = some copy) (hs : decl.symbol? = some symbol)
    (hone : ∀ other ∈ d.template.resources, other.binds symbol → other = decl) :
    (∃ l dependsOn, Iterated x nested d l dependsOn decl copy instances) ∧
      p.ledger.symbols.getIds symbol = instances.filterMap (Instance.boundId? true) ∧
      (∀ (i : Nat) inst id, instances[i]? = some inst → inst.boundId? true = some id →
        p.ledger.symbols.Finds symbol
          ((instances.take i).filterMap (Instance.boundId? true)).length id) ∧
      ((∀ inst ∈ instances, ∃ id, inst.boundId? true = some id) →
        (p.ledger.symbols.getIds symbol).length = instances.length ∧
          ∀ (i : Nat) inst, instances[i]? = some inst →
            ∃ id, inst.boundId? true = some id ∧ p.ledger.symbols.Finds symbol i id) := by
  have hu := (prepare_ok (Template.ofJson_numbered ht) h₀).1
  have hiter : ∃ l dependsOn, Iterated x nested d l dependsOn decl copy instances := by
    obtain ⟨before, after, hh⟩ := List.append_of_mem hc
    obtain ⟨m, _, -, -, -, hturn⟩ := hr.split hh
    cases hturn with
    | commits _ s _ _ ha _ => exact ⟨_, _, iterated_of_attempt hcopy ha⟩
  have hids := hr.getIds_iterated hu hc (by simp [hcopy]) hs hone
  have harray := hr.array_of_committed hu hc (by simp [hcopy]) hs
  have hfinds (i : Nat) (inst : Instance) (id : String) (hi : instances[i]? = some inst)
      (hb : inst.boundId? true = some id) : p.ledger.symbols.Finds symbol
        ((instances.take i).filterMap (Instance.boundId? true)).length id := by
    apply SymbolTable.finds_of_getIds harray
    · rw [hids]
      exact getElem?_filterMap hi hb
    · obtain ⟨l, dependsOn, hl⟩ := hiter
      have hlen := List.length_filterMap_le (Instance.boundId? true) (instances.take i)
      have hbound := hl.bound
      rw [List.length_take] at hlen
      unfold Integer.maxInt64 at hbound
      unfold Integer.maxNat64
      omega
  refine ⟨hiter, hids, hfinds, ?_⟩
  intro hall
  refine ⟨by rw [hids, length_filterMap_of_forall hall], ?_⟩
  intro i inst hi
  obtain ⟨id, hid⟩ := hall inst (List.mem_of_getElem? hi)
  refine ⟨id, hid, ?_⟩
  have hlt : i < instances.length := (List.getElem?_eq_some_iff.mp hi).1
  -- nothing is left out, so the ids stand where their instances do
  have htake := length_filterMap_of_forall fun inst (hm : inst ∈ instances.take i) =>
    hall inst (List.mem_of_mem_take hm)
  have h := hfinds i inst id hi hid
  rwa [htake, List.length_take, Nat.min_eq_left hlt.le] at h

def skipsFirst (name : String) (count : Int) : Json := .obj
  [("languageVersion", .str "2.0"),
   ("resources", .obj
    [("vms", .obj
      [("copy", .obj [("name", .str "c"), ("count", .num (.int count))]),
       ("condition", .str "[greater(copyIndex(), 0)]"), ("type", .str "A/b"),
       ("name", .str name)])])]

theorem alone {ds : List ResourceDeclaration} {decl : ResourceDeclaration} {name : String}
    (hl : ds.length = 1) (hd : decl ∈ ds) : ∀ other ∈ ds, other.binds name → other = decl := by
  obtain ⟨first, rfl⟩ := List.length_eq_one_iff.mp hl
  simp [List.mem_singleton.mp hd]

theorem Reached.iteration_skipsFirst :
    ∃ d plan p₀ decl copy instances p,
      Template.ofJson (skipsFirst "[concat('x', string(copyIndex()))]" 2) = .ok d.template ∧
      outcome (prepare d) (.start {} d.template.resources) = (.ok plan, p₀) ∧
      Reached small small.refuseNested d plan p₀ [.committed decl instances] p ∧
      decl.copy = some copy ∧ decl.symbol? = some "vms" ∧
      (∀ other ∈ d.template.resources, other.binds "vms" → other = decl) ∧
      instances.map Progress.isSkipped = [true, false] ∧
      (p.ledger.symbols.getIds "vms").length = 2 ∧
      ∀ (i : Nat) inst, instances[i]? = some inst →
        ∃ id, inst.boundId? true = some id ∧ p.ledger.symbols.Finds "vms" i id := by
  have hc : commitsFirst small (skipsFirst "[concat('x', string(copyIndex()))]" 2)
      fun d decl instances _ =>
        decl.copy.isSome && decl.symbol? = some "vms" && d.template.resources.length = 1 &&
          instances.map Progress.isSkipped = [true, false] &&
          instances.all fun inst => (inst.boundId? true).isSome := by
    decide +kernel
  obtain ⟨d, plan, p₀, decl, instances, p, ht, h₀, hd, hr, hc⟩ := exists_of_commitsFirst hc
  simp only [Bool.and_eq_true, decide_eq_true_eq, List.all_eq_true, Option.isSome_iff_exists] at hc
  obtain ⟨⟨⟨⟨⟨copy, hcopy⟩, hs⟩, hlen⟩, hskip⟩, hall⟩ := hc
  have hone : ∀ other ∈ d.template.resources, other.binds "vms" → other = decl := alone hlen hd
  obtain ⟨-, -, -, h⟩ := hr.iteration ht h₀ List.mem_cons_self hcopy hs hone
  obtain ⟨hids, hfinds⟩ := h hall
  refine ⟨d, plan, p₀, decl, copy, instances, p, ht, h₀, hr, hcopy, hs, hone, hskip, ?_, hfinds⟩
  have h2 := congrArg List.length hskip
  rw [List.length_map] at h2
  rw [hids, h2]
  rfl

def afterSkipped? : List Instance → Option (ResourceValue × ResourceValue)
  | [.skipped none, .emitted first none, .emitted second none] => some (first, second)
  | _ => none

theorem afterSkipped?_eq_some {instances : List Instance} {first second : ResourceValue}
    (h : afterSkipped? instances = some (first, second)) :
    instances = [.skipped none, .emitted first none, .emitted second none] := by
  unfold afterSkipped? at h
  split at h
  · cases h
    rfl
  · cases h

/-- The first of three instances is skipped and its identity cannot be evaluated, so that the symbol has
two ids, and its index 1 leads to the instance at index 2. -/
theorem iteration_shifted_by_skipped :
    ∃ d plan p₀ decl first second p,
      Template.ofJson (skipsFirst "[createArray('x', 'y')[sub(copyIndex(), 1)]]" 3) =
        .ok d.template ∧
      outcome (prepare d) (.start {} d.template.resources) = (.ok plan, p₀) ∧
      Reached small small.refuseNested d plan p₀
        [.committed decl [.skipped none, .emitted first none, .emitted second none]] p ∧
      decl.copy.isSome ∧ decl.symbol? = some "vms" ∧
      (∀ other ∈ d.template.resources, other.binds "vms" → other = decl) ∧
      first.copyIndex = some 1 ∧ second.copyIndex = some 2 ∧
      first.identity.id ≠ second.identity.id ∧
      p.ledger.symbols.getIds "vms" = [first.identity.id, second.identity.id] ∧
      p.ledger.symbols.lookup "vms[1]" = .ok (some second.identity.id) := by
  have hc : commitsFirst small (skipsFirst "[createArray('x', 'y')[sub(copyIndex(), 1)]]" 3)
      fun d decl instances p => (afterSkipped? instances).any fun r =>
        decl.copy.isSome ∧ decl.symbol? = some "vms" ∧ d.template.resources.length = 1 ∧
          r.1.copyIndex = some 1 ∧ r.2.copyIndex = some 2 ∧ r.1.identity.id ≠ r.2.identity.id ∧
          p.ledger.symbols.getIds "vms" = [r.1.identity.id, r.2.identity.id] ∧
          (p.ledger.symbols.lookup "vms[1]").toOption = some (some r.2.identity.id) := by
    decide +kernel
  obtain ⟨d, plan, p₀, decl, instances, p, ht, h₀, hd, hr, hc⟩ := exists_of_commitsFirst hc
  obtain ⟨⟨first, second⟩, hi, hc⟩ := (Option.any_eq_true _ _).mp hc
  obtain ⟨hcopy, hs, hlen, h1, h2, hne, hids, hl⟩ := of_decide_eq_true hc
  rw [afterSkipped?_eq_some hi] at hr
  exact ⟨d, plan, p₀, decl, first, second, p, ht, h₀, hr, hcopy, hs, alone hlen hd, h1, h2, hne,
    hids, toOption_eq_some.mp hl⟩

end Expander
end ResourceTemplate
