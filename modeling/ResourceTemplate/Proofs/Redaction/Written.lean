import Mathlib.Data.List.TakeWhile
import ResourceTemplate.Proofs.Text.Pieces
import ResourceTemplate.Redaction

namespace ResourceTemplate

/-- What stands before the first character that is none of its own, if anything, can be told from the rest. -/
theorem List.append_inj_of_all {p : Char → Bool} {xs ys as bs : List Char} (hx : ∀ c ∈ xs, p c = true)
    (hy : ∀ c ∈ ys, p c = true) (ha : as.takeWhile p = []) (hb : bs.takeWhile p = [])
    (h : xs ++ as = ys ++ bs) : xs = ys ∧ as = bs := by
  have hxs : (xs ++ as).takeWhile p = xs := by rw [List.takeWhile_append_of_pos hx, ha, List.append_nil]
  have hys : (ys ++ bs).takeWhile p = ys := by rw [List.takeWhile_append_of_pos hy, hb, List.append_nil]
  obtain rfl : xs = ys := by rw [← hxs, h, hys]
  exact ⟨rfl, List.append_cancel_left h⟩

namespace PropertyPath

structure IsWord (key : String) : Prop where
  nonempty : key.toList ≠ []
  point : '.' ∉ key.toList
  bracket : '[' ∉ key.toList

instance (key : String) : Decidable (IsWord key) :=
  decidable_of_iff (key.toList ≠ [] ∧ '.' ∉ key.toList ∧ '[' ∉ key.toList)
    ⟨fun h => ⟨h.1, h.2.1, h.2.2⟩, fun h => ⟨h.nonempty, h.point, h.bracket⟩⟩

/-- A key can stand in a path if another spelling of it can. -/
theorem IsWord.of_fold {key name : String} (h : IsWord name) (hf : Name.fold key = Name.fold name) : IsWord key := by
  have hmap : key.toList.map Char.toLower = name.toList.map Char.toLower := by
    simpa [Name.fold] using congrArg String.toList hf
  have hmem {c : Char} (hlow : ∀ d : Char, d.toLower = c ↔ d = c) (hc : c ∉ name.toList) : c ∉ key.toList := by
    have hiff (s : List Char) : c ∈ s.map Char.toLower ↔ c ∈ s := by
      simp only [List.mem_map, hlow, exists_eq_right]
    rwa [← hiff, hmap, hiff]
  refine ⟨?_, hmem (fun _ => Text.toLower_eq_iff (by decide) rfl) h.point,
    hmem (fun _ => Text.toLower_eq_iff (by decide) rfl) h.bracket⟩
  intro hnil
  rw [hnil, List.map_nil, eq_comm, List.map_eq_nil_iff] at hmap
  exact h.nonempty hmap

def IsWritten (path : PropertyPath) : Prop := ∀ name, .key name ∈ path → IsWord name

theorem isWritten_nil : IsWritten [] := fun name hm => by cases hm

theorem isWritten_cons_iff {step : PathSegment} {rest : PropertyPath} :
    IsWritten (step :: rest) ↔ (∀ name, step = .key name → IsWord name) ∧ IsWritten rest := by
  unfold IsWritten
  simp only [List.mem_cons]
  constructor
  · exact fun h => ⟨fun name hs => h name (.inl hs.symm), fun name hm => h name (.inr hm)⟩
  · rintro ⟨hs, hr⟩ name (rfl | hm)
    · exact hs name rfl
    · exact hr name hm

def continued : PropertyPath → List Char
  | [] => []
  | .key name :: rest => '.' :: (name.toList ++ continued rest)
  | .index i :: rest => '[' :: (Integer.natText i ++ ']' :: continued rest)
  | .wildcard :: rest => '[' :: '*' :: ']' :: continued rest

theorem toList_renderFrom {here : String} (h : here.toList ≠ []) (path : PropertyPath) :
    (renderFrom here path).toList = here.toList ++ continued path := by
  induction path generalizing here with
  | nil => simp [renderFrom, continued]
  | cons step rest ih =>
    cases step with
    | key name =>
      have hne : here.isEmpty = false := by simpa [String.isEmpty_iff] using h
      rw [renderFrom, joinKey, hne, ih (by simp)]
      simp [continued]
    | index i =>
      rw [renderFrom, joinIndex, ih (by simp)]
      simp [continued]
    | wildcard =>
      rw [renderFrom, ih (by simp)]
      simp [continued]

def isWordChar (c : Char) : Bool := c != '.' && c != '['

theorem IsWord.all {key : String} (h : IsWord key) : ∀ c ∈ key.toList, isWordChar c = true := by
  intro c hc
  rw [isWordChar, Bool.and_eq_true, bne_iff_ne, bne_iff_ne]
  exact ⟨fun hp => h.point (hp ▸ hc), fun hb => h.bracket (hb ▸ hc)⟩

theorem takeWhile_continued (path : PropertyPath) : (continued path).takeWhile isWordChar = [] := by
  cases path with
  | nil => rfl
  | cons step rest => cases step <;> rfl

theorem ne_of_mem_natText {n : Nat} {c d : Char} (h : c ∈ Integer.natText n) (hd : Integer.isDigit d = false) :
    c ≠ d := by
  rintro rfl
  rw [Integer.isDigit_of_mem_natText h] at hd
  cases hd

theorem continued_injective {p q : PropertyPath} (hp : IsWritten p) (hq : IsWritten q)
    (h : continued p = continued q) : p = q := by
  -- an index is no star, and a bracket ends it
  have hstar (i : Nat) (as bs : List Char) : Integer.natText i ++ ']' :: as ≠ '*' :: ']' :: bs := by
    intro h
    cases hi : Integer.natText i with
    | nil => exact Integer.natText_ne_nil i hi
    | cons c cs =>
      rw [hi] at h
      exact ne_of_mem_natText (hi ▸ List.mem_cons_self) (by decide) (List.cons.inj h).1
  induction p generalizing q with
  | nil =>
    cases q with
    | nil => rfl
    | cons step rest => cases step <;> cases h
  | cons step rest ih =>
    rw [isWritten_cons_iff] at hp
    cases q with
    | nil => cases step <;> cases h
    | cons step' rest' =>
      rw [isWritten_cons_iff] at hq
      cases step with
      | key name =>
        cases step' with
        | key name' =>
          obtain ⟨hname, hrest⟩ := List.append_inj_of_all (hp.1 name rfl).all (hq.1 name' rfl).all
            (takeWhile_continued rest) (takeWhile_continued rest') (List.cons.inj h).2
          rw [String.toList_injective hname, ih hp.2 hq.2 hrest]
        | index i => cases (List.cons.inj h).1
        | wildcard => cases (List.cons.inj h).1
      | index i =>
        cases step' with
        | key name => cases (List.cons.inj h).1
        | index j =>
          have hclose {n : Nat} : ∀ c ∈ Integer.natText n, (c != ']') = true := fun c hc =>
            bne_iff_ne.mpr (ne_of_mem_natText hc (by decide))
          obtain ⟨hi, hrest⟩ := List.append_inj_of_all hclose hclose (by simp) (by simp) (List.cons.inj h).2
          rw [Integer.natText_injective hi, ih hp.2 hq.2 (List.cons.inj hrest).2]
        | wildcard => exact absurd (List.cons.inj h).2 (hstar i _ _)
      | wildcard =>
        cases step' with
        | key name => cases (List.cons.inj h).1
        | index j => exact absurd (List.cons.inj h).2.symm (hstar j _ _)
        | wildcard =>
          have hrest : continued rest = continued rest' := by
            simpa [continued] using h
          rw [ih hp.2 hq.2 hrest]

theorem render_injective {p q : PropertyPath} {name name' : String} (hp : IsWritten (.key name :: p))
    (hq : IsWritten (.key name' :: q)) (h : render (.key name :: p) = render (.key name' :: q)) :
    PathSegment.key name :: p = .key name' :: q := by
  have hrender {name : String} {p : PropertyPath} (hp : IsWritten (.key name :: p)) :
      (render (.key name :: p)).toList = name.toList ++ continued p :=
    toList_renderFrom ((isWritten_cons_iff.mp hp).1 name rfl).nonempty p
  have hc : continued (.key name :: p) = continued (.key name' :: q) := by
    rw [continued, continued, ← hrender hp, ← hrender hq, h]
  exact continued_injective hp hq hc

theorem brackets?_isWritten {fuel : Nat} {cs : List Char} {path : PropertyPath}
    (h : brackets? fuel cs = some path) : IsWritten path := by
  induction fuel generalizing cs path with
  | zero =>
    cases cs with
    | nil =>
      cases h
      exact isWritten_nil
    | cons c rest => cases h
  | succ fuel ih =>
    cases cs with
    | nil =>
      cases h
      exact isWritten_nil
    | cons c rest =>
      rw [brackets?] at h
      split at h
      · cases h
      · split at h
        · cases h
        · split at h
          · obtain ⟨steps, hs, rfl⟩ := Option.map_eq_some_iff.mp h
            exact isWritten_cons_iff.mpr ⟨(fun name hn => nomatch hn), ih hs⟩
          · split at h
            · obtain ⟨steps, hs, rfl⟩ := Option.map_eq_some_iff.mp h
              exact isWritten_cons_iff.mpr ⟨(fun name hn => nomatch hn), ih hs⟩
            · cases h

theorem part?_isWritten {isFirst : Bool} {cs : List Char} {path : PropertyPath} (hcs : '.' ∉ cs)
    (h : part? isFirst cs = some path) : IsWritten path := by
  unfold part? at h
  dsimp only at h
  split at h
  · cases h
  · obtain ⟨steps, hs, hp⟩ := Option.map_eq_some_iff.mp h
    have hsteps := brackets?_isWritten hs
    split at hp
    · exact hp ▸ hsteps
    · rename_i hne
      rw [← hp, isWritten_cons_iff]
      refine ⟨fun name hn => ?_, hsteps⟩
      cases hn
      refine ⟨by simpa using hne, ?_, ?_⟩
      · rw [String.toList_ofList]
        exact fun hm => hcs (List.takeWhile_subset _ hm)
      · rw [String.toList_ofList]
        exact fun hm => by simpa using List.mem_takeWhile_imp hm

theorem parts?_isWritten {isFirst : Bool} {ps : List (List Char)} {path : PropertyPath}
    (hps : ∀ cs ∈ ps, '.' ∉ cs) (h : parts? isFirst ps = some path) : IsWritten path := by
  induction ps generalizing isFirst path with
  | nil =>
    cases h
    exact isWritten_nil
  | cons cs ps ih =>
    rw [List.forall_mem_cons] at hps
    obtain ⟨steps, hs, h⟩ := Option.bind_eq_some_iff.mp h
    obtain ⟨more, hm, h⟩ := Option.bind_eq_some_iff.mp h
    cases h
    intro name hmem
    rcases List.mem_append.mp hmem with hmem | hmem
    · exact part?_isWritten hps.1 hs name hmem
    · exact ih hps.2 hm name hmem

theorem parse_isWritten {s : String} {path : PropertyPath} (h : parse s = .ok path) : IsWritten path := by
  unfold parse at h
  split at h
  · rename_i hp
    cases h
    exact parts?_isWritten (fun cs hcs => Text.notMem_splitFrom List.not_mem_nil hcs) hp
  · cases h

def IndicesFit (path : PropertyPath) : Prop := ∀ i, .index i ∈ path → i ≤ Integer.maxNat64

theorem indicesFit_nil : IndicesFit [] := fun i hm => by cases hm

theorem indicesFit_cons_iff {step : PathSegment} {rest : PropertyPath} :
    IndicesFit (step :: rest) ↔ (∀ i, step = .index i → i ≤ Integer.maxNat64) ∧ IndicesFit rest := by
  simp only [IndicesFit, List.mem_cons, eq_comm (a := step)]
  exact ⟨fun h => ⟨fun i hi => h i (.inl hi), fun i hi => h i (.inr hi)⟩,
    fun h i hi => hi.elim (h.1 i) (h.2 i)⟩

theorem continued_append (p q : PropertyPath) : continued (p ++ q) = continued p ++ continued q := by
  induction p with
  | nil => rfl
  | cons step rest ih => cases step <;> simp [continued, ih]

def IsKeyless (path : PropertyPath) : Prop := ∀ name, .key name ∉ path

theorem isKeyless_nil : IsKeyless [] := fun name hm => by cases hm

theorem IsKeyless.point_notMem {path : PropertyPath} (h : IsKeyless path) : '.' ∉ continued path := by
  induction path with
  | nil => exact List.not_mem_nil
  | cons step rest ih =>
    have hrest := ih fun name hm => h name (List.mem_cons_of_mem _ hm)
    cases step with
    | key name => exact absurd List.mem_cons_self (h name)
    | index i =>
      have hdigits : '.' ∉ Integer.natText i := fun hm => ne_of_mem_natText hm (by decide) rfl
      simp [continued, hdigits, hrest]
    | wildcard => simp [continued, hrest]

theorem brackets?_continued {path : PropertyPath} (hk : IsKeyless path) (hi : IndicesFit path) {fuel : Nat}
    (hf : path.length ≤ fuel) : brackets? fuel (continued path) = some path := by
  induction path generalizing fuel with
  | nil => cases fuel <;> rfl
  | cons step rest ih =>
    obtain ⟨fuel, rfl⟩ : ∃ n, fuel = n + 1 := ⟨fuel - 1, by simp at hf; omega⟩
    have hrest := ih (fun name hm => hk name (List.mem_cons_of_mem _ hm)) (indicesFit_cons_iff.mp hi).2
      (Nat.le_of_succ_le_succ hf)
    cases step with
    | key name => exact absurd List.mem_cons_self (hk name)
    | index i =>
      have hclose : ']' ∉ Integer.natText i := fun hm => ne_of_mem_natText hm (by decide) rfl
      have hstar : Integer.natText i ≠ ['*'] := fun h =>
        ne_of_mem_natText (h ▸ List.mem_singleton.mpr rfl : '*' ∈ Integer.natText i) (by decide) rfl
      have hread := Integer.nat64_natText ((indicesFit_cons_iff.mp hi).1 i rfl)
      rw [continued, brackets?]
      simp [Text.splitOnce?_single hclose, hstar, hread, hrest]
    | wildcard =>
      have hsplit : Text.splitOnce? [']'] ('*' :: ']' :: continued rest) = some (['*'], continued rest) :=
        @Text.splitOnce?_single ']' ['*'] (continued rest) (by decide)
      rw [continued, brackets?]
      simp [hsplit, hrest]

theorem part?_key {name : String} (hn : IsWord name) {steps : PropertyPath} (hk : IsKeyless steps)
    (hi : IndicesFit steps) (isFirst : Bool) :
    part? isFirst (name.toList ++ continued steps) = some (.key name :: steps) := by
  have hname : ∀ c ∈ name.toList, (c != '[') = true := fun c hc =>
    bne_iff_ne.mpr fun h => hn.bracket (h ▸ hc)
  have hstop : (continued steps).takeWhile (· != '[') = [] ∧
      (continued steps).dropWhile (· != '[') = continued steps := by
    cases steps with
    | nil => exact ⟨rfl, rfl⟩
    | cons step rest =>
      cases step with
      | key name => exact absurd List.mem_cons_self (hk name)
      | index i => exact ⟨rfl, rfl⟩
      | wildcard => exact ⟨rfl, rfl⟩
  have hlength : steps.length ≤ (continued steps).length := by
    clear hk hi hstop
    induction steps with
    | nil => exact Nat.le_refl 0
    | cons step rest ih => cases step <;> simp [continued] <;> omega
  unfold part?
  dsimp only
  rw [List.takeWhile_append_of_pos hname, List.dropWhile_append_of_pos hname, hstop.1, hstop.2, List.append_nil,
    brackets?_continued hk hi hlength]
  simp [hn.nonempty]

/-- The steps after a key are read back. Those in brackets are gathered until a point or the end is met. -/
theorem parts?_splitOn {rest : PropertyPath} (hw : IsWritten rest) (hr : IndicesFit rest) {name : String}
    (hn : IsWord name) {steps : PropertyPath} (hk : IsKeyless steps) (hi : IndicesFit steps) (isFirst : Bool) :
    parts? isFirst (Text.splitOn ['.'] (name.toList ++ continued steps ++ continued rest)) =
      some (.key name :: steps ++ rest) := by
  have hpoint {name : String} (hn : IsWord name) {steps : PropertyPath} (hk : IsKeyless steps) :
      '.' ∉ name.toList ++ continued steps := by
    simp [hn.point, hk.point_notMem]
  induction rest generalizing name steps isFirst with
  | nil =>
    rw [continued, List.append_nil, Text.splitOn_single, List.splitOn_eq_singleton (hpoint hn hk), parts?,
      part?_key hn hk hi]
    simp [parts?]
  | cons step rest ih =>
    obtain ⟨hword, hwrest⟩ := isWritten_cons_iff.mp hw
    obtain ⟨hindex, hrrest⟩ := indicesFit_cons_iff.mp hr
    -- a step in brackets joins those before it
    have hbracket (hs : ∀ name, step ≠ .key name) :
        parts? isFirst (Text.splitOn ['.'] (name.toList ++ continued steps ++ continued (step :: rest))) =
          some (.key name :: steps ++ step :: rest) := by
      have hk' : IsKeyless (steps ++ [step]) := fun name hm =>
        (List.mem_append.mp hm).elim (hk name) fun hm => hs name (List.mem_singleton.mp hm).symm
      have hi' : IndicesFit (steps ++ [step]) := fun i hm =>
        (List.mem_append.mp hm).elim (hi i) fun hm => hindex i (List.mem_singleton.mp hm).symm
      have htext : continued steps ++ continued (step :: rest) = continued (steps ++ [step]) ++ continued rest := by
        rw [← continued_append, ← continued_append, List.append_assoc, List.singleton_append]
      rw [List.append_assoc, htext, ← List.append_assoc, ih hwrest hrrest hn hk' hi' isFirst]
      simp
    cases step with
    | key next =>
      have hnext : parts? false (Text.splitOn ['.'] (next.toList ++ continued [] ++ continued rest)) =
          some (.key next :: rest) :=
        ih hwrest hrrest (hword next rfl) isKeyless_nil indicesFit_nil false
      have htext : continued (.key next :: rest) = '.' :: (next.toList ++ continued [] ++ continued rest) := by
        simp [continued]
      rw [htext, Text.splitOn_single, List.splitOn_append_cons_self_of_not_mem (hpoint hn hk), ← Text.splitOn_single,
        parts?, part?_key hn hk hi]
      simp only [Option.bind_eq_bind, Option.bind_some, List.isEmpty_cons, Bool.and_false, hnext]
      rfl
    | index i => exact hbracket (by simp)
    | wildcard => exact hbracket (by simp)

theorem parse_render_key {name : String} {rest : PropertyPath} (hw : IsWritten (.key name :: rest))
    (hi : IndicesFit (.key name :: rest)) : parse (render (.key name :: rest)) = .ok (.key name :: rest) := by
  obtain ⟨hn, hrest⟩ := isWritten_cons_iff.mp hw
  have htext : (render (.key name :: rest)).toList = name.toList ++ continued [] ++ continued rest := by
    rw [continued, List.append_nil]
    exact toList_renderFrom (hn name rfl).nonempty rest
  have hread := parts?_splitOn hrest (indicesFit_cons_iff.mp hi).2 (hn name rfl) isKeyless_nil indicesFit_nil true
  rw [parse, htext, hread]
  rfl

end PropertyPath
end ResourceTemplate
