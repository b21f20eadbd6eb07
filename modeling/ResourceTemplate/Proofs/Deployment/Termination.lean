import ResourceTemplate.Proofs.Deployment.Depth

namespace ResourceTemplate

/-- Scopes that differ in slots in progress and in what is reported at most. -/
structure Scope.Alike (s t : Scope) : Prop where
  loops : t.loops = s.loops
  guids : t.guids = s.guids
  evaluated : ∀ x v, t.slot? x = some (.evaluated v) ↔ s.slot? x = some (.evaluated v)

theorem Scope.Alike.refl (s : Scope) : s.Alike s := ⟨rfl, rfl, fun _ _ => Iff.rfl⟩

theorem Scope.Alike.enter {s t : Scope} {x : SlotName} (h : s.Alike t) (hs : s.slot? x = none) :
    (s.enter x).Alike (t.inLoops []) := by
  refine ⟨rfl, h.guids.trans (guids_put _ _ _).symm, fun y v => ?_⟩
  rw [slot?_enter]
  change t.slot? y = _ ↔ _
  rw [h.evaluated]
  by_cases hy : y = x
  · rw [if_pos hy, hy, hs]
    exact ⟨nofun, nofun⟩
  · rw [if_neg hy]

theorem Scope.Alike.drop {s t : Scope} {x : SlotName} (h : s.Alike t)
    (hs : s.slot? x = some .inProgress) (loops : List (String × Int)) :
    ((s.drop x).inLoops loops).Alike (t.inLoops loops) := by
  refine ⟨rfl, h.guids.trans (guids_drop _ _).symm, fun y v => ?_⟩
  change t.slot? y = _ ↔ (s.drop x).slot? y = _
  rw [slot?_drop, h.evaluated]
  by_cases hy : y = x
  · rw [if_pos hy, hy, hs]
    exact ⟨nofun, nofun⟩
  · rw [if_neg hy]

theorem Scope.Alike.keep {d : Deployment} {s t : Scope} (h : s.Alike t) (x : Request) (v : Json)
    (loops : List (String × Int)) : ((d.keep x v s).inLoops loops).Alike ((d.keep x v t).inLoops loops) := by
  refine ⟨rfl, (d.guids_keep x v t).trans (h.guids.trans (d.guids_keep x v s).symm), fun y w => ?_⟩
  change (d.keep x v t).slot? y = _ ↔ (d.keep x v s).slot? y = _
  rw [d.slot?_keep, d.slot?_keep]
  by_cases hy : y = x.slot
  · rw [if_pos hy, if_pos hy]
  · rw [if_neg hy, if_neg hy]
    exact h.evaluated y w

theorem Scope.Alike.report {s t : Scope} (h : s.Alike t) (deployment p q : String) (x : Diagnostic) :
    (s.report deployment p x).Alike (t.report deployment q x) := by
  obtain ⟨_, _, hs⟩ := s.report_eq deployment p x
  obtain ⟨_, _, ht⟩ := t.report_eq deployment q x
  rw [hs, ht]
  exact ⟨h.loops, h.guids, h.evaluated⟩

def Circular (e : ExprError) : Prop := ∃ name, e = .cyclicVariableReference name

def AroundCircular (e : ExpandError) : Prop := ∃ pointer source, e = .expression pointer source ∧ Circular source

/-- The accord of steps of which the first fails in one way, from wherever a property holds, or they do the same
on scopes that are alike. -/
def sameUnless {ε : Type} (I : Scope → Prop) (Q : ε → Prop) : Accord ε Scope where
  Agree m n := ∀ s t, I s → s.Alike t → I (outcome m s).2 ∧
    ((∃ e, (outcome m s).1 = .error e ∧ Q e) ∨
      ((outcome n t).1 = (outcome m s).1 ∧ (outcome m s).2.Alike (outcome n t).2))
  agree_pure a s t hs ht := ⟨hs, .inr ⟨rfl, ht⟩⟩
  agree_bind {α β m n f g} hm hf s t hs ht := by
    obtain ⟨hi, h⟩ := hm s t hs ht
    rw [outcome_bind, outcome_bind]
    rcases ho : outcome m s with ⟨e | a, s'⟩
    · rw [ho] at hi h
      refine ⟨hi, ?_⟩
      rcases h with ⟨e', he, hq⟩ | ⟨hr, hl⟩
      · cases he
        exact .inl ⟨e, rfl, hq⟩
      · rcases hn : outcome n t with ⟨e' | b, t'⟩
        · rw [hn] at hr hl
          cases hr
          exact .inr ⟨rfl, hl⟩
        · rw [hn] at hr
          cases hr
    · rw [ho] at hi h
      rcases h with ⟨e, he, -⟩ | ⟨hr, hl⟩
      · cases he
      · rcases hn : outcome n t with ⟨e' | b, t'⟩
        · rw [hn] at hr
          cases hr
        · rw [hn] at hr hl
          cases hr
          exact hf a s' t' hi hl

namespace sameUnless

variable {α : Type} {I : Scope → Prop} {d : Deployment} {l : Ledger}

theorem encloses (hI : OfRunning I) :
    (sameUnless I AroundCircular).Encloses (sameUnless I Circular) Eq where
  inside := { lift := fun _ s t hs ht => ⟨hs, .inr ⟨rfl, ht⟩⟩ }
  append _ h := congrArg (· ++ _) h
  lift {α f p q} hpq _ _ s t hs ht := by
    subst hpq
    exact ⟨hs, .inr ⟨rfl, ht⟩⟩
  atPlace {α m n p q} hpq hm s t hs ht := by
    subst hpq
    obtain ⟨hi, h⟩ := hm { s with pointer := p } { t with pointer := p } (hI s _ hs fun _ => rfl)
      ⟨ht.loops, ht.guids, ht.evaluated⟩
    rw [ScopeM.outcome_atPlace, ScopeM.outcome_atPlace]
    refine ⟨hI _ _ hi fun _ => rfl, ?_⟩
    rcases h with ⟨e, he, hc⟩ | ⟨hr, hl⟩
    · exact .inl ⟨.expression p e, congrArg (Except.mapError _) he, p, e, rfl, hc⟩
    · exact .inr ⟨congrArg (Except.mapError _) hr, hl.loops, hl.guids, hl.evaluated⟩
  withLoop {α m n} name i hm s t hs ht := by
    obtain ⟨hi, h⟩ := hm { s with loops := (name, (i : Int)) :: s.loops }
      { t with loops := (name, (i : Int)) :: t.loops } (hI s _ hs fun _ => rfl)
      ⟨congrArg (List.cons (name, (i : Int))) ht.loops, ht.guids, ht.evaluated⟩
    rw [ScopeM.outcome_withLoop, ScopeM.outcome_withLoop]
    refine ⟨hI _ _ hi fun _ => rfl, ?_⟩
    rcases h with h | ⟨hr, hl⟩
    · exact .inl h
    · exact .inr ⟨hr, congrArg List.tail hl.loops, hl.guids, hl.evaluated⟩
  refl _ := rfl
  toEval {α m n} hm s t hs ht := by
    obtain ⟨hi, h⟩ := hm s t hs ht
    rw [ScopeM.outcome_toEval, ScopeM.outcome_toEval]
    refine ⟨hi, ?_⟩
    rcases h with ⟨e, he, pointer, source, rfl, hc⟩ | ⟨hr, hl⟩
    · exact .inl ⟨source, congrArg (Except.mapError _) he, hc⟩
    · exact .inr ⟨congrArg (Except.mapError _) hr, hl⟩

theorem accords (hI : OfRunning I) (C : Callees) : d.Accords l l (sameUnless I Circular) C where
  evaluates := (encloses hI).inside
  copyIndex loop s t hs ht := by
    refine ⟨hs, .inr ⟨?_, ht⟩⟩
    change t.copyIndex loop = s.copyIndex loop
    unfold Scope.copyIndex
    rw [ht.loops]
  newGuid _ s t hs ht := by
    refine ⟨hI s _ hs fun _ => rfl, .inr ⟨?_, ht.loops, congrArg (· + 1) ht.guids, ht.evaluated⟩⟩
    change Except.ok (d.newGuid t).1 = Except.ok (d.newGuid s).1
    unfold Deployment.newGuid
    rw [ht.guids]
  remark text s t hs ht := by
    refine ⟨hI s _ hs fun x => ?_, .inr ⟨rfl, ?_⟩⟩
    · exact Scope.running_congr (Scope.slot?_report s _ _ _ x)
    · exact ht.report _ _ _ _
  resolve _ view target s t hs ht := by
    obtain ⟨r, hr | hr⟩ := d.outcome_resolve l view target
    · rw [hr, hr]
      exact ⟨hs, .inr ⟨rfl, ht⟩⟩
    · rw [hr, hr]
      exact ⟨hI s _ hs fun x => Scope.running_congr (Scope.slot?_report s _ _ _ x),
        .inr ⟨rfl, ht.report _ _ _ _⟩⟩

end sameUnless

namespace Deployment

variable {d : Deployment} {l : Ledger}

section
variable {depth : Nat} {F : Evaluations} (x : Request) {s t : Scope}
  (hF : (d.evaluations (d.hostAt l depth)).Agree (sameUnless (d.Room depth) AroundCircular) Eq Callees.all.Admits F)
include hF

end

end Deployment
end ResourceTemplate
