import ResourceTemplate.Json.Printer
import ResourceTemplate.Json.Reader
import ResourceTemplate.Proofs.Entries
import ResourceTemplate.Proofs.Json.Integers

namespace ResourceTemplate

theorem Entries.ofList_of_nodup {α : Type} {es : Entries α} (h : es.keys.Nodup) : ofList es = es := by
  have hgo (es acc : Entries α) (h : (acc ++ es).keys.Nodup) :
      es.foldl (fun acc e => acc.insert e.1 e.2) acc = acc ++ es := by
    induction es generalizing acc with
    | nil => rw [List.foldl_nil, List.append_nil]
    | cons e es ih =>
      have hnew : acc.has e.1 = false := by
        rw [keys, List.map_append, List.map_cons, List.nodup_append'] at h
        have hd := List.disjoint_right.mp h.2.2 List.mem_cons_self
        rw [has, List.any_eq_false]
        intro f hf he
        exact hd (beq_iff_eq.mp he ▸ List.mem_map_of_mem hf)
      rw [List.foldl_cons, insert, hnew, if_neg (by decide), ih _ (by simpa using h), List.append_assoc,
        List.singleton_append]
  exact hgo es [] h

namespace Json

/-- Values without doubles that nest at most `depth` arrays and objects. As everywhere in JSON data, the names of an
object differ and an integer has 64 bits, with a sign or without. -/
inductive Exact : (depth : Nat) → Json → Prop
  | null {depth : Nat} : Exact depth .null
  | bool {depth : Nat} (b : Bool) : Exact depth (.bool b)
  | int {depth : Nat} {n : Int} (hl : -(Integer.maxInt64 : Int) - 1 ≤ n) (hu : n ≤ Integer.maxNat64) :
      Exact depth (.num (.int n))
  | str {depth : Nat} (s : String) : Exact depth (.str s)
  | arr {depth : Nat} {items : List Json} (h : ∀ v ∈ items, Exact depth v) : Exact (depth + 1) (.arr items)
  | obj {depth : Nat} {members : Entries Json} (hk : members.keys.Nodup) (h : ∀ e ∈ members, Exact depth e.2) :
      Exact (depth + 1) (.obj members)

theorem hex4?_control {n : Nat} (h : n < 32) : hex4? '0' '0' (hexDigit (n / 16)) (hexDigit (n % 16)) = some n := by
  decide +revert

theorem stringBody?_letter {letter c : Char} (h : unescape? letter = some c) (acc cs : List Char) :
    stringBody? acc ('\\' :: letter :: cs) = stringBody? (c :: acc) cs := by
  have hu : letter ≠ 'u' := by
    rintro rfl
    cases h
  rw [stringBody?, h]
  rintro a b c d rest rfl
  exact absurd rfl hu

theorem stringBody?_control {c : Char} (h : c.toNat < 32) (acc cs : List Char) :
    stringBody? acc ('\\' :: 'u' :: '0' :: '0' :: hexDigit (c.toNat / 16) :: hexDigit (c.toNat % 16) :: cs) =
      stringBody? (c :: acc) cs := by
  have hlow : isLowSurrogate c.toNat = false := by simp [isLowSurrogate]; omega
  have hhigh : isHighSurrogate c.toNat = false := by simp [isHighSurrogate]; omega
  rw [stringBody?, hex4?_control h]
  simp only [hlow, hhigh, Bool.false_eq_true, if_false, Char.ofNat_toNat]

theorem stringBody?_escape (acc : List Char) (c : Char) (cs : List Char) :
    stringBody? acc (escape c ++ cs) = stringBody? (c :: acc) cs := by
  unfold escape
  -- the characters with an escape letter of their own, the other control characters, all others
  iterate 7
    split
    · rename_i hc
      rw [beq_iff_eq] at hc
      subst hc
      exact stringBody?_letter rfl acc cs
  split
  · rename_i hc
    exact stringBody?_control hc acc cs
  · rename_i hquote hslash _ _ _ _ _ hc
    rw [beq_iff_eq] at hquote hslash
    rw [List.singleton_append, stringBody?]
    · rw [if_neg (by simp [hc, hslash])]
    · exact hquote
    · exact fun _ _ _ _ _ h => absurd h hslash
    · exact fun _ _ h => absurd h hslash

theorem stringBody?_quoted (acc w rest : List Char) :
    stringBody? acc (w.flatMap escape ++ '"' :: rest) = some (acc.reverse ++ w, rest) := by
  induction w generalizing acc with
  | nil => simp [stringBody?]
  | cons c w ih => rw [List.flatMap_cons, List.append_assoc, stringBody?_escape, ih, List.reverse_cons, List.append_assoc,
      List.singleton_append]

theorem string?_quoted (s : String) (rest : List Char) : string? (quoted s ++ rest) = some (s, rest) := by
  simp only [quoted, List.cons_append, List.append_assoc, List.nil_append, string?, stringBody?_quoted,
    List.reverse_nil, Option.map_some, String.ofList_toList]

theorem skipBlanks_cons {c : Char} (h : isBlank c = false) (cs : List Char) : skipBlanks (c :: cs) = c :: cs := by
  rw [skipBlanks, List.dropWhile_cons_of_neg (by simp [h])]

def listed {α : Type} (text : α → List Char) (xs : List α) : List Char := [','].intercalate (xs.map text)

theorem listed_cons {α : Type} (text : α → List Char) (x y : α) (xs : List α) :
    listed text (x :: y :: xs) = text x ++ ',' :: listed text (y :: xs) := by
  simp [listed, List.intercalate_cons_cons]

theorem renderItems_eq (items : List Json) : renderItems items = listed render items := by
  induction items with
  | nil => rfl
  | cons v items ih =>
    cases items with
    | nil => simp [renderItems, listed]
    | cons w items =>
      rw [renderItems, ih, listed_cons]
      exact List.cons_ne_nil w items

def member (e : String × Json) : List Char := quoted e.1 ++ ':' :: render e.2

theorem renderEntries_eq (members : Entries Json) : renderEntries members = listed member members := by
  induction members with
  | nil => rfl
  | cons e members ih =>
    cases members with
    | nil => simp [renderEntries, listed, member]
    | cons f members =>
      rw [renderEntries, ih, listed_cons, member, List.append_assoc, List.cons_append]
      exact List.cons_ne_nil f members

section

variable {α : Type} {item? : List Char → Option (α × List Char)} {text : α → List Char} {close : Char}

/-- Items are read up to the closing bracket if each of them is read up to the comma or bracket behind it. -/
theorem separated?_listed (hblank : isBlank close = false) (hcomma : close ≠ ',') {fuel : Nat} {x : α} {xs : List α}
    (hfuel : xs.length < fuel)
    (h : ∀ y ∈ x :: xs, ∀ c, c = ',' ∨ c = close → ∀ rest, item? (text y ++ c :: rest) = some (y, c :: rest))
    (rest : List Char) : separated? item? close fuel (listed text (x :: xs) ++ close :: rest) = some (x :: xs, rest) := by
  induction xs generalizing x fuel with
  | nil =>
    cases fuel with
    | zero => cases hfuel
    | succ fuel =>
      have hx := h x List.mem_cons_self close (.inr rfl) rest
      simp [listed, separated?, hx, skipBlanks_cons hblank]
  | cons y xs ih =>
    cases fuel with
    | zero => cases hfuel
    | succ fuel =>
      have hx := h x List.mem_cons_self ',' (.inl rfl) (listed text (y :: xs) ++ close :: rest)
      have hrest := ih (Nat.lt_of_succ_lt_succ hfuel) fun z hz => h z (List.mem_cons_of_mem _ hz)
      rw [listed_cons, List.append_assoc, List.cons_append, separated?, hx]
      simp only [skipBlanks_cons (show isBlank ',' = false from rfl)]
      rw [if_neg (by simpa using hcomma.symm), if_pos (by simp), hrest]

theorem length_le_listed {xs : List α} (h : ∀ y ∈ xs, text y ≠ []) : xs.length ≤ (listed text xs).length := by
  induction xs with
  | nil => exact Nat.zero_le _
  | cons x xs ih =>
    rw [List.forall_mem_cons] at h
    have hx := List.length_pos_iff.mpr h.1
    cases xs with
    | nil => simpa [listed] using Nat.succ_le_of_lt hx
    | cons y xs =>
      have hxs := ih h.2
      simp only [listed_cons, List.length_append, List.length_cons] at hxs ⊢
      omega

theorem group?_listed (hblank : isBlank close = false) (hcomma : close ≠ ',') {xs : List α}
    (hfirst : ∀ y ∈ xs, ∃ c cs, text y = c :: cs ∧ isBlank c = false ∧ c ≠ close)
    (h : ∀ y ∈ xs, ∀ c, c = ',' ∨ c = close → ∀ rest, item? (text y ++ c :: rest) = some (y, c :: rest))
    (rest : List Char) : group? item? close (listed text xs ++ close :: rest) = some (xs, rest) := by
  cases xs with
  | nil => simp [group?, listed, skipBlanks_cons hblank]
  | cons x xs =>
    obtain ⟨c, cs, hc, hb, hne⟩ := hfirst x List.mem_cons_self
    have hlength : (x :: xs).length ≤ (listed text (x :: xs)).length :=
      length_le_listed fun y hy => by
        obtain ⟨c, cs, hc, -⟩ := hfirst y hy
        simp [hc]
    obtain ⟨ds, hds⟩ : ∃ ds, listed text (x :: xs) = c :: ds := by
      cases xs with
      | nil => exact ⟨cs, by simp [listed, hc]⟩
      | cons y xs => exact ⟨_, by rw [listed_cons, hc, List.cons_append]⟩
    have hfuel : xs.length < (listed text (x :: xs) ++ close :: rest).length := by
      rw [List.length_append]
      exact Nat.lt_of_lt_of_le hlength (Nat.le_add_right _ _)
    have hsep := separated?_listed hblank hcomma hfuel h rest
    rw [hds] at hsep ⊢
    rw [group?, List.cons_append, skipBlanks_cons hb]
    simpa [hne] using hsep

end

theorem ends_cons {c : Char} (h : c = ',' ∨ c = ']' ∨ c = '\x7d') (rest : List Char) : Number.Ends (c :: rest) := by
  intro d hd
  cases hd
  rcases h with rfl | rfl | rfl <;> decide

/-- A digit or a minus sign is no character outside their range. -/
theorem ne_of_number {c : Char} (h : Integer.isDigit c = true ∨ c = '-') {d : Char}
    (hd : ¬(45 ≤ d.toNat ∧ d.toNat ≤ 57)) : c ≠ d := by
  rintro rfl
  rcases h with h | rfl
  · have hrange : 48 ≤ c.toNat ∧ c.toNat ≤ 57 := by
      simpa [Integer.isDigit, Char.le_def, UInt32.le_iff_toNat_le] using h
    omega
  · exact hd (by decide)

theorem isBlank_of_number {c : Char} (h : Integer.isDigit c = true ∨ c = '-') : isBlank c = false := by
  simp only [isBlank, Bool.or_eq_false_iff, beq_eq_false_iff_ne]
  exact ⟨⟨⟨ne_of_number h (by decide), ne_of_number h (by decide)⟩, ne_of_number h (by decide)⟩,
    ne_of_number h (by decide)⟩

theorem render_first {depth : Nat} {v : Json} (h : Exact depth v) :
    ∃ c cs, render v = c :: cs ∧ isBlank c = false ∧ c ≠ ']' := by
  cases h with
  | null => exact ⟨_, _, rfl, by decide, by decide⟩
  | bool b => cases b <;> exact ⟨_, _, rfl, by decide, by decide⟩
  | @int _ n hl hu =>
    obtain ⟨c, cs, hc, hd⟩ := Integer.text_eq_cons n
    exact ⟨c, cs, hc, isBlank_of_number hd, ne_of_number hd (by decide)⟩
  | str s => exact ⟨_, _, rfl, by decide, by decide⟩
  | arr h => exact ⟨_, _, rfl, by decide, by decide⟩
  | obj hk h => exact ⟨_, _, rfl, by decide, by decide⟩

variable {close : List (String × Json) → Entries Json} {depth : Nat}

/-- What begins with a digit or a minus sign is read as a number. -/
theorem value?_number {c : Char} (h : Integer.isDigit c = true ∨ c = '-') (cs : List Char) :
    value? close depth (c :: cs) = (Number.read? (c :: cs)).map fun (n, rest) => (.num n, rest) := by
  unfold value?
  rw [skipBlanks_cons (isBlank_of_number h)]
  split
  case h_7 => rfl
  all_goals
    rename_i hc
    exact absurd (List.cons.inj hc).1 (ne_of_number h (by decide))

theorem value?_quoted (s : String) (rest : List Char) :
    value? close depth (quoted s ++ rest) = some (.str s, rest) := by
  have hs := string?_quoted s rest
  unfold value?
  simp only [quoted, List.cons_append] at hs ⊢
  rw [skipBlanks_cons (by decide)]
  simp only [hs, Option.map_some]

theorem value?_arr {cs rest : List Char} {items : List Json}
    (h : group? (value? close depth) ']' cs = some (items, rest)) :
    value? close (depth + 1) ('[' :: cs) = some (.arr items, rest) := by
  rw [value?, skipBlanks_cons (by decide)]
  simp only [h, Option.map_some]

theorem value?_obj {cs rest : List Char} {members : Entries Json}
    (h : group? (pair? (value? close depth)) '\x7d' cs = some (members, rest)) :
    value? close (depth + 1) ('\x7b' :: cs) = some (.obj (close members), rest) := by
  rw [value?, skipBlanks_cons (by decide)]
  simp only [h, Option.map_some]

theorem pair?_member {e : String × Json} {rest : List Char}
    (h : value? close depth (render e.2 ++ rest) = some (e.2, rest)) :
    pair? (value? close depth) (member e ++ rest) = some (e, rest) := by
  have hs := string?_quoted e.1 (':' :: (render e.2 ++ rest))
  have hblank : skipBlanks (quoted e.1 ++ ':' :: (render e.2 ++ rest)) = quoted e.1 ++ ':' :: (render e.2 ++ rest) :=
    skipBlanks_cons (by decide) _
  rw [pair?, member, List.append_assoc, List.cons_append, hblank, hs]
  dsimp only
  rw [skipBlanks_cons (by decide)]
  simp only [h, Option.map_some]

/-- The text of a value is read as that value up to where the text ends, by any rule for the entries of objects that
keeps those of distinct names. -/
theorem value?_render (hclose : ∀ es : Entries Json, es.keys.Nodup → close es = es) {v : Json} (h : Exact depth v)
    {rest : List Char} (hr : Number.Ends rest) : value? close depth (render v ++ rest) = some (v, rest) := by
  induction h generalizing rest with
  | null =>
    rw [value?]
    rfl
  | bool b =>
    rw [value?]
    cases b <;> rfl
  | @int _ n hl hu =>
    obtain ⟨c, cs, hc, hd⟩ := Integer.text_eq_cons n
    have hread := Number.read?_text hl hu hr
    rw [hc] at hread
    rw [render, numberText, hc, List.cons_append, value?_number hd, ← List.cons_append, hread]
    rfl
  | str s => exact value?_quoted s rest
  | @arr depth items h ih =>
    have hitem : ∀ v ∈ items, ∀ c, c = ',' ∨ c = ']' → ∀ rest,
        value? close depth (render v ++ c :: rest) = some (v, c :: rest) :=
      fun v hv c hc rest => ih v hv (ends_cons (hc.imp_right .inl) rest)
    have hgroup := group?_listed rfl (by decide) (fun v hv => render_first (h v hv)) hitem rest
    rw [render, renderItems_eq]
    simpa using value?_arr hgroup
  | @obj depth members hk h ih =>
    have hmember : ∀ e ∈ members, ∀ c, c = ',' ∨ c = '\x7d' → ∀ rest,
        pair? (value? close depth) (member e ++ c :: rest) = some (e, c :: rest) :=
      fun e he c hc rest => pair?_member (ih e he (ends_cons (hc.imp_right .inr) rest))
    have hfirst : ∀ e ∈ members, ∃ c cs, member e = c :: cs ∧ isBlank c = false ∧ c ≠ '\x7d' :=
      fun e _ => ⟨'"', _, rfl, by decide, by decide⟩
    have hobj := value?_obj (group?_listed rfl (by decide) hfirst hmember rest)
    rw [hclose _ hk] at hobj
    rw [render, renderEntries_eq]
    simpa using hobj

theorem parseWith?_compress (hclose : ∀ es : Entries Json, es.keys.Nodup → close es = es) {v : Json}
    (h : Exact maxDepth v) : parseWith? close (compress v) = some v := by
  have hend : Number.Ends [] := fun c hc => by cases hc
  have hv := value?_render hclose h hend
  rw [List.append_nil] at hv
  rw [parseWith?, compress, String.toList_ofList, hv]
  rfl

theorem parse?_compress {v : Json} (h : Exact maxDepth v) : parse? (compress v) = some v :=
  parseWith?_compress (fun _ hk => Entries.ofList_of_nodup hk) h

/-- The compact text of a value is read back with its entries as written. -/
theorem parseWritten?_compress {v : Json} (h : Exact maxDepth v) : parseWritten? (compress v) = some v :=
  parseWith?_compress (fun _ _ => rfl) h

end Json
end ResourceTemplate
