import ResourceTemplate.Proofs.Discipline
import ResourceTemplate.Template.Reader

namespace ResourceTemplate.Template

def Malformed (e : ExpandError) : Prop := ∃ pointer message, e = .malformedTemplate pointer message

theorem Malformed.isDefinite {e : ExpandError} (h : Malformed e) : e.isDefinite = true := by
  obtain ⟨pointer, message, rfl⟩ := h
  rfl

@[simp] theorem fails_malformed {α : Type} (pointer message : String) :
    Fails Malformed (malformed pointer message : Read α) :=
  Fails.error.mpr ⟨pointer, message, rfl⟩

theorem objectAt_fails (pointer message : String) (v : Json) :
    Fails Malformed (objectAt pointer message v) := by
  unfold objectAt
  split <;> simp

theorem readType_fails (v : Option Json) (pointer : String) : Fails Malformed (readType v pointer) := by
  unfold readType
  split
  · simp
  · split <;> simp

theorem readParameter_fails (name : String) (v : Json) : Fails Malformed (readParameter name v) := by
  unfold readParameter
  refine (objectAt_fails _ _ _).bind fun es => ?_
  extract_lets join
  have hj : ∀ allowed, Fails Malformed (join allowed) := fun allowed =>
    (readType_fails _ _).bind fun _ => .pure _
  split
  · exact (Fails.pure _).bind hj
  · exact (Fails.pure _).bind hj
  · exact (fails_malformed _ _).bind hj

theorem readFunctionParameters_fails (pointer : String) (j : Nat) (vs : List Json) :
    Fails Malformed (readFunctionParameters pointer j vs) := by
  induction vs generalizing j with
  | nil => exact .ok _
  | cons v vs ih =>
    unfold readFunctionParameters
    refine (objectAt_fails _ _ _).bind fun es => ?_
    split
    · simp
    · exact (readType_fails _ _).bind fun _ => (ih _).bind fun _ => .pure _

theorem readFunction_fails (ns pointer name : String) (v : Json) :
    Fails Malformed (readFunction ns pointer name v) := by
  unfold readFunction
  refine (objectAt_fails _ _ _).bind fun es => ?_
  extract_lets join
  have hj : ∀ parameters, Fails Malformed (join parameters) := by
    intro parameters
    unfold join
    split
    · exact (readType_fails _ _).bind fun _ => .pure _
    · exact fails_malformed _ _
  split
  · exact (readFunctionParameters_fails _ _ _).bind hj
  · exact (Fails.pure _).bind hj

theorem readFunctions_fails (i : Nat) (vs : List Json) : Fails Malformed (readFunctions i vs) := by
  induction vs generalizing i with
  | nil => exact .ok _
  | cons v vs ih =>
    unfold readFunctions
    refine (objectAt_fails _ _ _).bind fun es => ?_
    split
    · simp
    · split
      · exact (Fails.mapM (fun m => readFunction_fails _ _ _ _) _).bind fun _ =>
          (ih _).bind fun _ => .pure _
      · simp

theorem readCopy_fails (pointer : String) (v : Json) : Fails Malformed (readCopy pointer v) := by
  unfold readCopy
  refine (objectAt_fails _ _ _).bind fun es => ?_
  split
  · simp
  · split <;> simp

theorem readResource_fails (pointer : String) (ordinal : Nat) (parent : Option Nat) (v : Json) :
    Fails Malformed (readResource pointer ordinal parent v) := by
  unfold readResource
  refine (objectAt_fails _ _ _).bind fun es => ?_
  -- the rest of the read, as it goes on from each way to read what stands before
  extract_lets withCopy join
  have hc : ∀ copy, Fails Malformed (withCopy copy) := by
    intro copy
    unfold withCopy
    extract_lets withDependencies
    have hd : ∀ dependsOn, Fails Malformed (withDependencies dependsOn) := fun _ => .pure _
    split
    · exact (Fails.pure _).bind hd
    · exact (Fails.pure _).bind hd
    · exact (Fails.pure _).bind hd
    · exact (fails_malformed _ _).bind hd
  have hj : ∀ u, Fails Malformed (join u) := by
    intro u
    unfold join
    split
    · exact (Fails.pure _).bind hc
    · exact ((readCopy_fails _ _).map _).bind hc
  exact .ite ((fails_malformed _ _).bind hj) (hj ())

mutual

theorem flatten_fails (pointer : String) (ordinal : Nat) (parent : Option ResourceDeclaration) :
    (v : Json) → Fails Malformed (flatten pointer ordinal parent v)
  | .obj es => by
    unfold flatten
    exact (readResource_fails _ _ _ _).bind fun own =>
      (flattenNested_fails pointer (ordinal + 1) _ es es).bind fun _ => .pure _
  | .arr _ => (readResource_fails _ _ _ _).bind fun _ => .pure _
  | .null => (readResource_fails _ _ _ _).bind fun _ => .pure _
  | .bool _ => (readResource_fails _ _ _ _).bind fun _ => .pure _
  | .num _ => (readResource_fails _ _ _ _).bind fun _ => .pure _
  | .str _ => (readResource_fails _ _ _ _).bind fun _ => .pure _

theorem flattenNested_fails (pointer : String) (ordinal : Nat) (own : ResourceDeclaration)
    (all : Entries Json) :
    (es : List (String × Json)) → Fails Malformed (flattenNested pointer ordinal own all es)
  | [] => .ok _
  | (k, v) :: rest => by
    unfold flattenNested
    split
    · cases v with
      | arr children => exact flattenAll_fails _ ordinal (some own) 0 children
      | _ => exact .ok _
    · exact flattenNested_fails pointer ordinal own all rest

theorem flattenAll_fails (base : String) (ordinal : Nat) (parent : Option ResourceDeclaration)
    (i : Nat) : (vs : List Json) → Fails Malformed (flattenAll base ordinal parent i vs)
  | [] => .ok _
  | v :: vs => by
    unfold flattenAll
    exact (flatten_fails _ ordinal parent v).bind fun block =>
      (flattenAll_fails base (ordinal + block.length) parent (i + 1) vs).bind fun _ => .pure _

end

theorem readKeyed_fails (ordinal : Nat) (es : List (String × Json)) :
    Fails Malformed (readKeyed ordinal es) := by
  induction es generalizing ordinal with
  | nil => exact .ok _
  | cons e es ih => exact (readResource_fails _ _ _ _).bind fun _ => (ih _).bind fun _ => .pure _

theorem readOutput_fails (name : String) (v : Json) : Fails Malformed (readOutput name v) := by
  unfold readOutput
  refine (objectAt_fails _ _ _).bind fun es => ?_
  extract_lets typed
  have ht : ∀ type, Fails Malformed (typed type) := by
    intro type
    unfold typed
    extract_lets join
    have hj : ∀ copy, Fails Malformed (join copy) := fun copy => .pure _
    split
    · exact (Fails.pure _).bind hj
    · split
      · exact (fails_malformed _ _).bind hj
      · split
        · exact (fails_malformed _ _).bind hj
        · exact (Fails.pure _).bind hj
    · exact (fails_malformed _ _).bind hj
  split
  · exact (Fails.pure _).bind ht
  · exact ((readType_fails _ _).map _).bind ht

theorem objectSection_fails (es : Entries Json) (name : String) :
    Fails Malformed (objectSection es name) := by
  unfold objectSection
  split <;> simp

theorem ofJson_fails (v : Json) : Fails Malformed (ofJson v) := by
  unfold ofJson
  refine (objectAt_fails _ _ _).bind fun es => ?_
  refine (objectSection_fails _ _).bind fun parameters => ?_
  refine (Fails.mapM (fun p => readParameter_fails _ _) _).bind fun _ => ?_
  refine (objectSection_fails _ _).bind fun vars => ?_
  extract_lets withFunctions
  have hf : ∀ functions, Fails Malformed (withFunctions functions) := by
    intro functions
    unfold withFunctions
    extract_lets withResources
    have hr : ∀ resources, Fails Malformed (withResources resources) := fun _ =>
      (objectSection_fails _ _).bind fun outputs =>
        (Fails.mapM (fun o => readOutput_fails _ _) _).bind fun _ => .pure _
    split
    · exact (Fails.pure _).bind hr
    · exact (Fails.pure _).bind hr
    · exact (flattenAll_fails _ _ _ _ _).bind fun _ => (Fails.pure _).bind hr
    · exact (readKeyed_fails _ _).bind fun _ => (Fails.pure _).bind hr
    · exact (fails_malformed _ _).bind hr
  split
  · exact (Fails.pure _).bind hf
  · exact (Fails.pure _).bind hf
  · exact (readFunctions_fails _ _).bind hf
  · exact (fails_malformed _ _).bind hf

end ResourceTemplate.Template
