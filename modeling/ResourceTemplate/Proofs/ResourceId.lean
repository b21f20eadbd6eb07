import Mathlib.Data.List.Induction
import ResourceTemplate.Proofs.Text.Pieces
import ResourceTemplate.ResourceId

namespace ResourceTemplate.ResourceId

open Text (joined)

def interleave : List String → List String → List String
  | t :: types, n :: names => t :: n :: interleave types names
  | _, _ => []

theorem interleave_map (f : String → String) (types names : List String) :
    interleave (types.map f) (names.map f) = (interleave types names).map f := by
  induction types generalizing names with
  | nil => rfl
  | cons t types ih =>
    cases names with
    | nil => rfl
    | cons n names => simp [interleave, ih]

theorem length_interleave {types names : List String} (h : types.length = names.length) :
    (interleave types names).length = 2 * types.length := by
  induction types generalizing names with
  | nil => rfl
  | cons t types ih =>
    cases names with
    | nil => cases h
    | cons n names =>
      have hrest := ih (Nat.succ.inj h)
      simp only [interleave, List.length_cons, hrest]
      omega

theorem mem_interleave {types names : List String} {s : String} (h : s ∈ interleave types names) :
    s ∈ types ∨ s ∈ names := by
  induction types generalizing names with
  | nil => cases h
  | cons t types ih =>
    cases names with
    | nil => cases h
    | cons n names =>
      simp only [interleave, List.mem_cons] at h ⊢
      rcases h with rfl | rfl | h
      · exact .inl (.inl rfl)
      · exact .inr (.inl rfl)
      · exact (ih h).imp .inr .inr

theorem interleave_injective {types names types' names' : List String} (h : types.length = names.length)
    (h' : types'.length = names'.length) (he : interleave types names = interleave types' names') :
    types = types' ∧ names = names' := by
  induction types generalizing names types' names' with
  | nil =>
    cases names with
    | cons n names => cases h
    | nil =>
      cases types' <;> cases names' <;> first | exact ⟨rfl, rfl⟩ | cases h' | cases he
  | cons t types ih =>
    cases names with
    | nil => cases h
    | cons n names =>
      cases types' with
      | nil => cases he
      | cons t' types' =>
        cases names' with
        | nil => cases he
        | cons n' names' =>
          simp only [interleave, List.cons.injEq] at he
          obtain ⟨rfl, rfl, he⟩ := he
          obtain ⟨rfl, rfl⟩ := ih (Nat.succ.inj h) (Nat.succ.inj h') he
          exact ⟨rfl, rfl⟩

/-- The segments an id has below its scope: those of the short form of a resource group, or those of a provider. -/
inductive Segments (resourceType : String) : List String → List String → Prop
  | group {name : String} (h : Name.same resourceType resourceGroupType = true) :
      Segments resourceType [name] ["resourceGroups", name]
  | provider {ns : String} {types names : List String} (h : Name.same resourceType resourceGroupType = false)
      (ht : splitType resourceType = .ok (ns, types)) (hl : types.length = names.length) :
      Segments resourceType names ("providers" :: ns :: interleave types names)

theorem splitType_ok {resourceType ns : String} {types : List String}
    (h : splitType resourceType = .ok (ns, types)) :
    Text.splitChar '/' resourceType = ns :: types ∧ types ≠ [] ∧ "" ∉ types := by
  unfold splitType at h
  split at h
  · rename_i ns' types' hs
    split at h
    · cases h
    · rename_i hne
      cases h
      simp only [Bool.or_eq_true, not_or, List.isEmpty_iff, List.any_eq_true, String.isEmpty_iff] at hne
      exact ⟨hs, hne.1.2, fun hm => hne.2 ⟨"", hm, rfl⟩⟩
  · cases h

theorem toList_join_zip {types names : List String} (h : types.length = names.length) :
    (String.join ((types.zip names).map fun (t, n) => "/" ++ t ++ "/" ++ n)).toList =
      (interleave types names).flatMap fun s => '/' :: s.toList := by
  induction types generalizing names with
  | nil => simp [interleave]
  | cons t types ih =>
    cases names with
    | nil => cases h
    | cons n names => simp [interleave, ih (Nat.succ.inj h)]

theorem splitType_error {resourceType : String} {fault : Fault} (h : splitType resourceType = .error fault) :
    fault = .invalidType resourceType := by
  unfold splitType at h
  split at h
  · split at h <;> cases h
    rfl
  · cases h
    rfl

/-- With a name for every type segment only a type that is no resource type has no id. -/
theorem under_error {scope resourceType : String} {names : List String} {fault : Fault}
    (hcount : (Text.splitChar '/' resourceType).length = names.length + 1)
    (h : under scope resourceType names = .error fault) : fault = .invalidType resourceType := by
  unfold under at h
  split at h
  · -- the type of resource groups has one type segment
    rename_i hg
    have hpieces := congrArg List.length ((Text.same_iff_splitChar '/' (by decide) rfl _ _).mp hg)
    have hgroup : (Text.splitChar '/' resourceGroupType).length = 2 := by decide +kernel
    rw [List.length_map, List.length_map, hgroup, hcount] at hpieces
    obtain ⟨name, rfl⟩ : ∃ name, names = [name] := List.length_eq_one_iff.mp (by omega)
    cases h
  · unfold providerPath at h
    cases ht : splitType resourceType with
    | error fault' =>
      simp only [ht, bind, Except.bind, Except.map] at h
      cases h
      exact splitType_error ht
    | ok found =>
      obtain ⟨ns, types⟩ := found
      rw [(splitType_ok ht).1, List.length_cons, Nat.add_right_cancel_iff] at hcount
      simp only [ht, bind, Except.bind, hcount, ne_eq, not_true_eq_false, if_false, Except.map] at h
      cases h

theorem under_ok {scope resourceType id : String} {names : List String} (h : under scope resourceType names = .ok id) :
    ∃ segments, Segments resourceType names segments ∧
      id.toList = (trimSlashes scope).toList ++ '/' :: joined '/' segments := by
  unfold under at h
  split at h
  · rename_i hg
    split at h
    · cases h
      exact ⟨_, .group hg, by simp [joined]⟩
    · cases h
  · rename_i hg
    unfold providerPath at h
    cases ht : splitType resourceType with
    | error fault => simp [ht, bind, Except.bind, Except.map] at h
    | ok found =>
      obtain ⟨ns, types⟩ := found
      simp only [ht, bind, Except.bind] at h
      split at h
      · cases h
      · rename_i hl
        cases h
        refine ⟨_, .provider (Bool.eq_false_iff.mpr hg) ht (not_not.mp hl), ?_⟩
        rw [Text.joined_cons, List.flatMap_cons, ← toList_join_zip (not_not.mp hl)]
        simp

/-- An id whose last segment but one is not empty loses at most one slash. -/
theorem trimSlashes_tail {id : String} {cs n : List Char} {c : Char} (hid : id.toList = cs ++ c :: '/' :: n)
    (hc : c ≠ '/') (hn : '/' ∉ n) :
    id.toList = (trimSlashes id).toList ∨ id.toList = (trimSlashes id).toList ++ ['/'] := by
  rw [trimSlashes, String.toList_ofList, hid]
  cases n using List.reverseRecOn with
  | nil => exact .inr (by simp [hc])
  | append_singleton n d =>
    have hd : d ≠ '/' := fun hd => hn (by simp [hd])
    exact .inl (by simp [hd])

/-- Where the slashes of two such ids are as many up to a multiple of two, trimming hides no difference. -/
theorem map_toLower_of_trimSlashes {a b : String}
    (ha : a.toList = (trimSlashes a).toList ∨ a.toList = (trimSlashes a).toList ++ ['/'])
    (hb : b.toList = (trimSlashes b).toList ∨ b.toList = (trimSlashes b).toList ++ ['/'])
    (heven : a.toList.count '/' % 2 = b.toList.count '/' % 2) (h : same a b = true) :
    a.toList.map Char.toLower = b.toList.map Char.toLower := by
  have hmap : (trimSlashes a).toList.map Char.toLower = (trimSlashes b).toList.map Char.toLower :=
    String.ofList_inj.mp (Name.same_iff.mp h)
  have hcount : (trimSlashes a).toList.count '/' = (trimSlashes b).toList.count '/' := by
    rw [← Text.count_map_toLower (by decide) rfl, hmap, Text.count_map_toLower (by decide) rfl]
  rcases ha with ha | ha <;> rcases hb with hb | hb <;> rw [ha, hb] at heven ⊢
  · exact hmap
  · simp only [List.count_append, List.count_singleton_self] at heven
    omega
  · simp only [List.count_append, List.count_singleton_self] at heven
    omega
  · rw [List.map_append, hmap, List.map_append]

theorem fold_trimSlashes (id : String) : Name.fold (trimSlashes id) = trimSlashes (Name.fold id) := by
  have hslash : (fun c : Char => c == '/') ∘ Char.toLower = fun c => c == '/' := by
    funext c
    have hiff : c.toLower = '/' ↔ c = '/' := Text.toLower_eq_iff (by decide) rfl
    rw [Function.comp_apply, Bool.eq_iff_iff, beq_iff_eq, beq_iff_eq, hiff]
  simp [Name.fold, trimSlashes, ← List.map_reverse, List.dropWhile_map, hslash]

theorem interleave_concat {types names : List String} (hne : types ≠ []) (h : types.length = names.length) :
    ∃ front t n, interleave types names = front ++ [t, n] ∧ t ∈ types := by
  induction types generalizing names with
  | nil => exact absurd rfl hne
  | cons t types ih =>
    cases names with
    | nil => cases h
    | cons n names =>
      cases types with
      | nil =>
        cases names with
        | nil => exact ⟨[], t, n, rfl, List.mem_cons_self⟩
        | cons n' names => cases h
      | cons t' types =>
        obtain ⟨front, last, n', he, hm⟩ := ih (List.cons_ne_nil _ _) (Nat.succ.inj h)
        exact ⟨t :: n :: front, last, n', by rw [interleave, he]; rfl, List.mem_cons_of_mem _ hm⟩

namespace Segments

variable {resourceType : String} {names segments : List String}

theorem length_even (h : Segments resourceType names segments) : segments.length % 2 = 0 := by
  cases h with
  | group => simp
  | provider hg ht hl =>
    rw [List.length_cons, List.length_cons, length_interleave hl]
    omega

theorem ne_nil (h : Segments resourceType names segments) : segments ≠ [] := by
  cases h <;> exact List.cons_ne_nil _ _

theorem concat (h : Segments resourceType names segments) :
    ∃ front t n, segments = front ++ [t, n] ∧ t ≠ "" := by
  cases h with
  | group => exact ⟨[], "resourceGroups", _, rfl, by decide⟩
  | @provider ns types names hg ht hl =>
    obtain ⟨-, hne, hfull⟩ := splitType_ok ht
    obtain ⟨front, t, n, he, hm⟩ := interleave_concat hne hl
    exact ⟨"providers" :: ns :: front, t, n, by rw [he]; rfl, fun h => hfull (h ▸ hm)⟩

theorem noSlash (h : Segments resourceType names segments) (hn : ∀ n ∈ names, '/' ∉ n.toList) :
    ∀ s ∈ segments, '/' ∉ s.toList := by
  cases h with
  | group => exact List.forall_mem_cons.mpr ⟨by decide, hn⟩
  | @provider ns types names hg ht hl =>
    have hpiece : ∀ t ∈ ns :: types, '/' ∉ t.toList := by
      rw [← (splitType_ok ht).1]
      exact fun t => Text.notMem_of_mem_splitChar
    rw [List.forall_mem_cons] at hpiece
    refine List.forall_mem_cons.mpr ⟨by decide, List.forall_mem_cons.mpr ⟨hpiece.1, fun s hs => ?_⟩⟩
    exact (mem_interleave hs).elim (hpiece.2 s) (hn s)

theorem count_slash (h : Segments resourceType names segments) (hn : ∀ n ∈ names, '/' ∉ n.toList) :
    ('/' :: joined '/' segments).count '/' = segments.length := by
  obtain ⟨s, rest, rfl⟩ := List.exists_cons_of_ne_nil h.ne_nil
  rw [List.count_cons_self, Text.count_joined (h.noSlash hn), List.length_cons]

theorem toList_trimSlashes {id : String} {cs : List Char} (h : Segments resourceType names segments)
    (hn : ∀ n ∈ names, '/' ∉ n.toList) (hid : id.toList = cs ++ '/' :: joined '/' segments) :
    id.toList = (trimSlashes id).toList ∨ id.toList = (trimSlashes id).toList ++ ['/'] := by
  obtain ⟨front, t, n, rfl, ht⟩ := h.concat
  have hslash := h.noSlash hn
  cases ht' : t.toList using List.reverseRecOn with
  | nil => exact absurd (String.toList_eq_nil_iff.mp ht') ht
  | append_singleton ts c =>
    have hlast : id.toList =
        (cs ++ (front.flatMap (fun p => '/' :: p.toList) ++ '/' :: ts)) ++ c :: '/' :: n.toList := by
      rw [hid, Text.cons_joined '/' (by simp)]
      simp [ht']
    exact trimSlashes_tail hlast (fun hc => hslash t (by simp) (by simp [ht', hc])) (hslash n (by simp))

/-- Types and names are spelled alike exactly when the segments are. -/
theorem fold_iff {type₁ type₂ : String} {names₁ names₂ segments₁ segments₂ : List String}
    (h₁ : Segments type₁ names₁ segments₁) (h₂ : Segments type₂ names₂ segments₂) :
    segments₁.map Name.fold = segments₂.map Name.fold ↔
      Name.same type₁ type₂ = true ∧ names₁.map Name.fold = names₂.map Name.fold := by
  have hother {a b : String} (ha : Name.same a resourceGroupType = true)
      (hb : Name.same b resourceGroupType = false) : Name.fold a ≠ Name.fold b := by
    intro hab
    rw [Name.same, ← hab, ← Name.same, ha] at hb
    cases hb
  have hhead : Name.fold "resourceGroups" ≠ Name.fold "providers" := by decide
  rw [Name.same_iff]
  cases h₁ with
  | group h₁ =>
    cases h₂ with
    | group h₂ =>
      have hsame := (Name.same_iff.mp h₁).trans (Name.same_iff.mp h₂).symm
      simp [hsame]
    | provider h₂ =>
      exact ⟨fun h => absurd (List.cons.inj h).1 hhead, fun h => absurd h.1 (hother h₁ h₂)⟩
  | @provider ns₁ types₁ names₁ h₁ ht₁ hl₁ =>
    cases h₂ with
    | group h₂ =>
      exact ⟨fun h => absurd (List.cons.inj h).1.symm hhead, fun h => absurd h.1.symm (hother h₂ h₁)⟩
    | @provider ns₂ types₂ names₂ h₂ ht₂ hl₂ =>
      have htype : Name.fold type₁ = Name.fold type₂ ↔
          Name.fold ns₁ = Name.fold ns₂ ∧ types₁.map Name.fold = types₂.map Name.fold := by
        rw [← Name.same_iff, Text.same_iff_splitChar '/' (by decide) rfl, (splitType_ok ht₁).1, (splitType_ok ht₂).1,
          List.map_cons, List.map_cons, List.cons.injEq]
      simp only [List.map_cons, List.cons.injEq, true_and, ← interleave_map, htype, and_assoc]
      refine and_congr_right fun _ => ⟨fun h => ?_, fun h => h.1 ▸ h.2 ▸ rfl⟩
      exact interleave_injective (by simpa using hl₁) (by simpa using hl₂) h

end Segments

/-- Ids below one scope are spellings of each other exactly when their types and their names are. -/
theorem same_under_iff {scope type₁ type₂ name₁ name₂ id₁ id₂ : String}
    (h₁ : under scope type₁ (splitName name₁) = .ok id₁) (h₂ : under scope type₂ (splitName name₂) = .ok id₂) :
    same id₁ id₂ = true ↔ Name.same type₁ type₂ = true ∧ Name.same name₁ name₂ = true := by
  have hname {name : String} : ∀ n ∈ splitName name, '/' ∉ n.toList := fun n => Text.notMem_of_mem_splitChar
  obtain ⟨segments₁, hs₁, hid₁⟩ := under_ok h₁
  obtain ⟨segments₂, hs₂, hid₂⟩ := under_ok h₂
  have hcount : id₁.toList.count '/' % 2 = id₂.toList.count '/' % 2 := by
    rw [hid₁, hid₂, List.count_append, List.count_append, hs₁.count_slash hname, hs₂.count_slash hname]
    have := hs₁.length_even
    have := hs₂.length_even
    omega
  have hids : same id₁ id₂ = true ↔ id₁.toList.map Char.toLower = id₂.toList.map Char.toLower := by
    have htail₁ := hs₁.toList_trimSlashes hname hid₁
    have htail₂ := hs₂.toList_trimSlashes hname hid₂
    refine ⟨map_toLower_of_trimSlashes htail₁ htail₂ hcount, fun h => ?_⟩
    rw [same, Name.same_iff, fold_trimSlashes, fold_trimSlashes, Name.fold, Name.fold, h]
  rw [hids, Text.same_iff_splitChar '/' (by decide) rfl name₁, ← splitName, ← splitName, ← hs₁.fold_iff hs₂, hid₁, hid₂,
    ← Text.map_toLower_joined_inj '/' (by decide) rfl (hs₁.noSlash hname) (hs₂.noSlash hname) hs₁.ne_nil hs₂.ne_nil]
  simp

/-- A name that ends in an empty segment, below a scope that ends in a slash. -/
theorem same_under_iff_subnet :
    same "/subscriptions/0/providers/Microsoft.Network/virtualNetworks/vnet/subnets/"
        "/subscriptions/0/providers/microsoft.network/virtualnetworks/VNET/subnets/" = true ↔
      Name.same "Microsoft.Network/virtualNetworks/subnets" "microsoft.network/virtualnetworks/subnets" = true ∧
        Name.same "vnet/" "VNET/" = true := by
  have h₁ : under "/subscriptions/0/" "Microsoft.Network/virtualNetworks/subnets" (splitName "vnet/") =
      .ok "/subscriptions/0/providers/Microsoft.Network/virtualNetworks/vnet/subnets/" := rfl
  have h₂ : under "/subscriptions/0/" "microsoft.network/virtualnetworks/subnets" (splitName "VNET/") =
      .ok "/subscriptions/0/providers/microsoft.network/virtualnetworks/VNET/subnets/" := rfl
  exact same_under_iff h₁ h₂

end ResourceTemplate.ResourceId
