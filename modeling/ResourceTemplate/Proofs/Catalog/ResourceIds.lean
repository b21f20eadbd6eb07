import ResourceTemplate.Deployment.Host
import ResourceTemplate.Proofs.Outcome
import ResourceTemplate.Proofs.ResourceId

namespace ResourceTemplate

theorem mapM_eq_ok {ε α β : Type} {f : α → Except ε β} {g : α → β} {xs : List α} (h : ∀ a ∈ xs, f a = .ok (g a)) :
    xs.mapM f = .ok (xs.map g) := by
  induction xs with
  | nil => rfl
  | cons x xs ih =>
    obtain ⟨hx, hxs⟩ := List.forall_mem_cons.mp h
    rw [List.mapM_cons, hx, ih hxs]
    rfl

theorem Args.strings_eq (f : String) (texts : List String) :
    (⟨f, texts.map .str⟩ : Args).strings = .ok texts := by
  have hstring : ∀ i ∈ List.range texts.length,
      (⟨f, texts.map .str⟩ : Args).string i = .ok (texts.getD i "") := by
    intro i hi
    have hlt := List.mem_range.mp hi
    simp [Args.string, Args.value, hlt, bind, Except.bind]
  have htexts : (List.range texts.length).map (fun i => texts.getD i "") = texts :=
    List.ext_getElem (by simp) fun i _ hi => by simp [hi]
  unfold Args.strings
  rw [List.length_map, mapM_eq_ok hstring, htexts]

namespace ResourceId

/-- A type below which an id can be built names its provider. -/
theorem slash_mem_of_under {scope type id : String} {names : List String} (h : under scope type names = .ok id) :
    '/' ∈ type.toList := by
  obtain ⟨segments, hs, -⟩ := under_ok h
  cases hs with
  | group hg =>
    have hfold : (Name.fold type).toList.count '/' = (Name.fold resourceGroupType).toList.count '/' := by
      rw [Name.same_iff.mp hg]
    have hcount : type.toList.count '/' = 1 := by
      rw [← Text.count_map_toLower (by decide) rfl, ← String.toList_ofList (l := type.toList.map Char.toLower)]
      exact hfold.trans (by decide)
    exact List.count_pos_iff.mp (by omega)
  | provider hg ht hl =>
    obtain ⟨hs, hne, -⟩ := splitType_ok ht
    obtain ⟨t, types, rfl⟩ := List.exists_cons_of_ne_nil hne
    rw [← Text.joined_splitChar '/' type, hs, Text.joined_cons]
    simp

theorem ne_empty_of_under {scope type id : String} {names : List String} (h : under scope type names = .ok id) :
    id ≠ "" := by
  obtain ⟨segments, -, hid⟩ := under_ok h
  rintro rfl
  simp at hid

end ResourceId

namespace Catalog.Surroundings

variable {σ : Type}

/-- The id of a resource in the scope of the deployment, as templates build it of its type and the segments of its
name. -/
theorem outcome_resourceId (h : Host σ) (f : String) {type : String} {names : List String}
    (ht : '/' ∈ type.toList) (hn : names ≠ []) (s : σ) :
    outcome (resourceId h ⟨f, (type :: names).map .str⟩) s =
      (build "resourceId" (scopeOf h s (type :: names) 0) type (names.flatMap ResourceId.splitName), s) := by
  have hcount : (⟨f, (type :: names).map .str⟩ : Args).expect 2 none = .ok () := by
    obtain ⟨n, rest, rfl⟩ := List.exists_cons_of_ne_nil hn
    simp [Args.expect, Args.expectCount]
  have hposition : typePosition ⟨f, (type :: names).map .str⟩ (type :: names) 2 = .ok 0 := by
    simp [typePosition, List.findIdx?_cons, ht]
  unfold resourceId
  rw [hcount, Args.strings_eq]
  change outcome (Host.lift (typePosition ⟨f, (type :: names).map .str⟩ (type :: names) 2) >>= fun position =>
    Host.read (fun s => scopeOf h s (type :: names) position) >>= fun scope =>
      Host.lift (build "resourceId" scope ((type :: names).getD position "") (namesAfter (type :: names) position))) s = _
  rw [hposition]
  rfl

end Catalog.Surroundings

end ResourceTemplate
