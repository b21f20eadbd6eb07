import ResourceTemplate.Proofs.Deployment.Changes
import ResourceTemplate.Proofs.Entries

namespace ResourceTemplate

/-- Slots that a step keeps: the same are in progress after it, and those that have a value keep it. -/
structure SlotsKept (before after : Entries Slot) : Prop where
  inProgress : ∀ key, after.get? key = some .inProgress ↔ before.get? key = some .inProgress
  evaluated : ∀ key v, before.get? key = some (.evaluated v) → after.get? key = some (.evaluated v)

namespace SlotsKept

variable {before after : Entries Slot} {key : String}

theorem refl (slots : Entries Slot) : SlotsKept slots slots := ⟨fun _ => Iff.rfl, fun _ _ => id⟩

theorem trans {middle : Entries Slot} (h : SlotsKept before middle) (k : SlotsKept middle after) :
    SlotsKept before after :=
  ⟨fun key => (k.inProgress key).trans (h.inProgress key),
    fun key v hv => k.evaluated key v (h.evaluated key v hv)⟩

/-- Slots of which one was free are kept if that one is not in progress after and the others are kept. -/
theorem of_others (hk : before.get? key = none) (ha : after.get? key ≠ some .inProgress)
    (ho : ∀ name, name ≠ key →
      (after.get? name = some .inProgress ↔ before.get? name = some .inProgress) ∧
        ∀ v, before.get? name = some (.evaluated v) → after.get? name = some (.evaluated v)) :
    SlotsKept before after := by
  constructor
  · intro name
    by_cases hn : name = key
    · rw [hn, hk]
      exact ⟨fun h => absurd h ha, nofun⟩
    · exact (ho name hn).1
  · intro name v hv
    have hn : name ≠ key := by
      rintro rfl
      rw [hk] at hv
      cases hv
    exact (ho name hn).2 v hv

theorem others (h : SlotsKept (before.insert key .inProgress) after) {name : String}
    (hn : name ≠ key) :
    (after.get? name = some .inProgress ↔ before.get? name = some .inProgress) ∧
      ∀ v, before.get? name = some (.evaluated v) → after.get? name = some (.evaluated v) := by
  have hi := h.inProgress name
  have he := h.evaluated name
  rw [Entries.get?_insert, if_neg hn] at hi he
  exact ⟨hi, he⟩

theorem fill (hk : before.get? key = none) (v : Json) :
    SlotsKept before (before.insert key (.evaluated v)) := by
  refine of_others hk (by simp [Entries.get?_insert]) fun name hn => ?_
  rw [Entries.get?_insert, if_neg hn]
  exact ⟨Iff.rfl, fun _ => id⟩

/-- A free slot is in progress for a while and then given a value. -/
theorem finish (hk : before.get? key = none)
    (h : SlotsKept (before.insert key .inProgress) after) (v : Json) :
    SlotsKept before (after.insert key (.evaluated v)) := by
  refine of_others hk (by simp [Entries.get?_insert]) fun name hn => ?_
  rw [Entries.get?_insert, if_neg hn]
  exact h.others hn

/-- A free slot is in progress for a while and then free again. -/
theorem drop (hk : before.get? key = none)
    (h : SlotsKept (before.insert key .inProgress) after) :
    SlotsKept before (after.erase key) := by
  refine of_others hk (by simp [Entries.get?_erase]) fun name hn => ?_
  rw [Entries.get?_erase, if_neg hn]
  exact h.others hn

end SlotsKept

/-- What evaluation leaves as it was: the loops, the place, and the slots of parameters and variables. -/
structure Scope.Undisturbed (s t : Scope) : Prop where
  loops : t.loops = s.loops
  pointer : t.pointer = s.pointer
  parameters : SlotsKept s.parameters t.parameters
  vars : SlotsKept s.vars t.vars

namespace Deployment

theorem steady_undisturbed (d : Deployment) : Steady d Scope.Undisturbed where
  refl s := ⟨rfl, rfl, .refl _, .refl _⟩
  trans _ _ _ h k := ⟨k.loops.trans h.loops, k.pointer.trans h.pointer,
    h.parameters.trans k.parameters, h.vars.trans k.vars⟩
  -- the loop that is left is the one that was entered, since those within it were left before
  loop _ h := ⟨congrArg List.tail h.loops, h.pointer, h.parameters, h.vars⟩
  outside h := ⟨rfl, h.pointer, h.parameters, h.vars⟩
  place _ h := ⟨h.loops, rfl, h.parameters, h.vars⟩
  report s deployment pointer x := by
    obtain ⟨_, _, hr⟩ := s.report_eq deployment pointer x
    rw [hr]
    exact ⟨rfl, rfl, .refl _, .refl _⟩
  guids _ _ := ⟨rfl, rfl, .refl _, .refl _⟩
  log _ _ := ⟨rfl, rfl, .refl _, .refl _⟩
  keepParameter {s name p v} _ _ hs := by
    obtain ⟨_, hk⟩ := keepParameter_eq p (Name.fold name) v s
    rw [hk]
    exact ⟨rfl, rfl, .fill hs v, .refl _⟩
  finishParameter {s t name p v} _ _ hs h := by
    obtain ⟨_, hk⟩ := keepParameter_eq p (Name.fold name) v t
    rw [hk]
    exact ⟨h.loops, h.pointer, .finish hs h.parameters v, h.vars⟩
  dropParameter hs h := ⟨h.loops, h.pointer, .drop hs h.parameters, h.vars⟩
  finishVariable v hs h := ⟨h.loops, h.pointer, h.parameters, .finish hs h.vars v⟩
  dropVariable hs h := ⟨h.loops, h.pointer, h.parameters, .drop hs h.vars⟩

/-- Whatever loops are entered, the slots of parameters are put back. -/
theorem steady_parametersKept (d : Deployment) : Steady d fun s t => SlotsKept s.parameters t.parameters where
  refl _ := .refl _
  trans _ _ _ := .trans
  loop _ h := h
  outside h := h
  place _ h := h
  report s deployment pointer x := by
    obtain ⟨_, _, hr⟩ := s.report_eq deployment pointer x
    rw [hr]
    exact .refl _
  guids _ _ := .refl _
  log _ _ := .refl _
  keepParameter _ _ hs := by
    rw [keepParameter_parameters]
    exact .fill hs _
  finishParameter _ _ hs h := by
    rw [keepParameter_parameters]
    exact .finish hs h _
  dropParameter hs h := .drop hs h
  finishVariable _ _ h := h
  dropVariable _ h := h

/-- Evaluation leads to where the same parameters are in progress. -/
theorem LeadsTo.parameters {d : Deployment} {s t : Scope} (h : d.LeadsTo s t) : SlotsKept s.parameters t.parameters :=
  h _ d.steady_parametersKept fun _ _ _ => .refl _

/-- Whatever a deployment is asked to evaluate, from any scope and whether it fails or not, it leaves the
loops, the place and the slots in progress as they were, and every slot that has a value keeps it: a value
or a string at a place of the template, a parameter, a variable, or a call of a function. It does so at
every depth; the host of the deployment is that at the depth `slotCount + 1`. -/
theorem evaluation_undisturbed (d : Deployment) (l : Ledger) (depth : Nat) (s : Scope) :
    (∀ pointer v, s.Undisturbed (outcome (d.evalOn (d.hostAt l depth) pointer v) s).2) ∧
      (∀ pointer text,
        s.Undisturbed (outcome (Value.onHost (d.hostAt l depth) pointer text) s).2) ∧
      (∀ name, s.Undisturbed (outcome ((d.hostAt l depth).parameterValue name) s).2) ∧
      (∀ name, s.Undisturbed (outcome ((d.hostAt l depth).variableValue name) s).2) ∧
      ∀ ns name arguments,
        s.Undisturbed (outcome ((d.hostAt l depth).userFunction ns name arguments) s).2 := by
  have hd := d.steady_undisturbed.obeys l
  have hh := hd.hostAt depth
  have hs := Value.onHost_obey hd.surrounds hh
  exact ⟨fun pointer v => Value.obeys_eval hd.surrounds hs pointer v s,
    fun pointer text => hs pointer text s, fun name => hh.parameterValue name s,
    fun name => hh.variableValue name s,
    fun ns name arguments => hh.userFunction ns name arguments s⟩

end Deployment
end ResourceTemplate
