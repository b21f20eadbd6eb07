import ResourceTemplate.Number.Reader
import ResourceTemplate.Proofs.Text.Pieces

namespace ResourceTemplate

theorem Integer.natText_eq_cons {n : Nat} (h : 0 < n) : ∃ c cs, natText n = c :: cs ∧ c ≠ '0' := by
  induction n using Nat.strongRecOn with
  | ind n ih =>
    have hstep : natText n = if n < 10 then [Nat.digitChar n] else natText (n / 10) ++ [Nat.digitChar (n % 10)] :=
      Nat.toDigits_eq_if (by decide)
    split at hstep
    · rename_i hn
      have hdigit : ∀ m < 10, 0 < m → Nat.digitChar m ≠ '0' := by decide
      exact ⟨_, [], hstep, hdigit n hn h⟩
    · obtain ⟨c, cs, hcs, hc⟩ := ih (n / 10) (by omega) (by omega)
      exact ⟨c, cs ++ [Nat.digitChar (n % 10)], by rw [hstep, hcs]; rfl, hc⟩

theorem Integer.text_eq_cons (n : Int) : ∃ c cs, text n = c :: cs ∧ (isDigit c = true ∨ c = '-') := by
  unfold text
  split
  · exact ⟨_, _, rfl, .inr rfl⟩
  · cases hd : natText n.natAbs with
    | nil => exact absurd hd (natText_ne_nil _)
    | cons c cs => exact ⟨c, cs, rfl, .inl (isDigit_of_mem_natText (hd ▸ List.mem_cons_self))⟩

namespace Number

theorem gather_eq {acc : Nat} {cs : List Char} (hl : Nat.ofDigitChars 10 cs acc ≤ Integer.maxNat64) :
    gather acc cs = (Nat.ofDigitChars 10 cs acc, []) := by
  induction cs generalizing acc with
  | nil => rfl
  | cons c cs ih =>
    rw [Nat.ofDigitChars_cons] at hl ⊢
    have hnext : acc * 10 + digitValue c = 10 * acc + (c.toNat - '0'.toNat) := by
      rw [digitValue]
      omega
    rw [gather]
    simp only [hnext]
    rw [if_pos (Nat.le_trans (Integer.le_ofDigitChars cs _) hl), ih hl]

def Ends (rest : List Char) : Prop := ∀ c ∈ rest.head?, isDigit c = false ∧ c ≠ '.' ∧ c ≠ 'e' ∧ c ≠ 'E'

/-- Whether these are the digits of a number: at least one, and no zero in front of others. -/
structure IsWhole (ds : List Char) : Prop where
  ne_nil : ds ≠ []
  digits : ∀ d ∈ ds, isDigit d = true
  leading : ds.head? = some '0' → ds = ['0']

theorem isWhole_natText (n : Nat) : IsWhole (Integer.natText n) where
  ne_nil := Integer.natText_ne_nil n
  digits _ := Integer.isDigit_of_mem_natText
  leading h0 := by
    rcases Nat.eq_zero_or_pos n with rfl | hn
    · rfl
    · obtain ⟨c, cs, hcs, hc⟩ := Integer.natText_eq_cons hn
      rw [hcs] at h0
      exact absurd (Option.some.inj h0) hc

/-- A token of an integer: the digits of a number, with a minus in front or not. -/
inductive IsToken : Int → List Char → Prop
  | whole {ds : List Char} : IsWhole ds → IsToken (Nat.ofDigitChars 10 ds 0) ds
  | negative {ds : List Char} : IsWhole ds → IsToken (-(Nat.ofDigitChars 10 ds 0 : Nat)) ('-' :: ds)

theorem isToken_text (n : Int) : IsToken n (Integer.text n) := by
  have habs : Nat.ofDigitChars 10 (Integer.natText n.natAbs) 0 = n.natAbs :=
    Nat.ofDigitChars_toDigits (by decide) (by decide)
  have hwhole := isWhole_natText n.natAbs
  unfold Integer.text
  split
  · have hneg := IsToken.negative hwhole
    rwa [habs, show -(n.natAbs : Int) = n by omega] at hneg
  · have hpos := IsToken.whole hwhole
    rwa [habs, show (n.natAbs : Int) = n by omega] at hpos

theorem IsWhole.takeWhile_append {ds : List Char} (hds : IsWhole ds) {rest : List Char} (h : Ends rest) :
    (ds ++ rest).takeWhile isDigit = ds ∧ (ds ++ rest).dropWhile isDigit = rest := by
  rw [List.takeWhile_append_of_pos hds.digits, List.dropWhile_append_of_pos hds.digits]
  cases rest with
  | nil => simp
  | cons c rest =>
    have hc := (h c rfl).1
    simp [hc]

theorem IsWhole.whole?_append {ds : List Char} (hds : IsWhole ds) {rest : List Char} (h : Ends rest) :
    whole? (ds ++ rest) = some (ds, rest) := by
  obtain ⟨htake, hdrop⟩ := hds.takeWhile_append h
  unfold whole?
  rw [htake, hdrop]
  dsimp only
  split
  · exact absurd rfl hds.ne_nil
  · rfl
  · rename_i hnot
    cases hds.leading rfl
    exact absurd rfl hnot
  · rfl

/-- What a text gives that begins with digits up to a place where no number goes on. -/
theorem IsWhole.read? (negative : Bool) {cs ds : List Char} (hds : IsWhole ds)
    (hl : Nat.ofDigitChars 10 ds 0 ≤ Integer.maxNat64) {rest : List Char} (h : Ends rest)
    (hsign : (match cs with | '-' :: r => (true, r) | r => (false, r)) = (negative, ds ++ rest)) :
    Number.read? cs = (ofWhole negative (Nat.ofDigitChars 10 ds 0)).map fun v => (v, rest) := by
  unfold Number.read?
  split
  rename_i hsign'
  cases hsign.symm.trans hsign'
  simp only [hds.whole?_append h, gather_eq hl, Option.bind_eq_bind, Option.bind_some]
  cases rest with
  | nil => cases ofWhole negative (Nat.ofDigitChars 10 ds 0) <;> rfl
  | cons c rest =>
    obtain ⟨-, hpoint, he, hE⟩ := h c rfl
    split
    · rename_i hc
      exact absurd (List.cons.inj hc).1 hpoint
    · rename_i hc
      cases hc
      rw [if_neg (by simp [he, hE])]
      cases ofWhole negative (Nat.ofDigitChars 10 ds 0) <;> rfl
    · rename_i hc
      cases hc

/-- A token of an integer of 64 bits, with a sign or without, is read as that integer; a zero with a minus is read as a
double. -/
theorem IsToken.read? {z : Int} {cs : List Char} (ht : IsToken z cs) (hl : -(Integer.maxInt64 : Int) - 1 ≤ z)
    (hu : z ≤ Integer.maxNat64) {rest : List Char} (h : Ends rest) :
    Number.read? (cs ++ rest) = some (.int z, rest) ∨
      z = 0 ∧ Number.read? (cs ++ rest) = some (.float (Binary64.zero true), rest) := by
  cases ht with
  | whole hds =>
    rw [hds.read? false (by omega) h]
    · exact .inl rfl
    · cases cs with
      | nil => exact absurd rfl hds.ne_nil
      | cons d ds =>
        have hd : d ≠ '-' := by
          rintro rfl
          cases hds.digits '-' List.mem_cons_self
        simp only [List.cons_append]
        split
        · rename_i he
          exact absurd (List.cons.inj he).1 hd
        · rfl
  | negative hds =>
    rename_i ds
    generalize hn : Nat.ofDigitChars 10 ds 0 = n at hl
    have hmax : n ≤ Integer.maxNat64 := by
      simp only [Integer.maxInt64, Integer.maxNat64] at hl ⊢
      omega
    rw [List.cons_append, hds.read? true (hn ▸ hmax) h rfl, hn]
    by_cases hzero : n = 0
    · subst hzero
      have hminus : ofWhole true 0 = some (.float (Binary64.zero true)) := by decide +kernel
      rw [hminus]
      exact .inr ⟨rfl, rfl⟩
    · have hplain : (n == 0 || decide (Integer.maxInt64 + 1 < n)) = false := by
        rw [Bool.or_eq_false_iff, beq_eq_false_iff_ne, decide_eq_false_iff_not]
        exact ⟨hzero, by omega⟩
      left
      rw [ofWhole, if_pos rfl, hplain, if_neg Bool.false_ne_true]
      rfl

/-- The text of an integer of 64 bits, with a sign or without, is read back. -/
theorem read?_text {n : Int} (hl : -(Integer.maxInt64 : Int) - 1 ≤ n) (hu : n ≤ Integer.maxNat64) {rest : List Char}
    (h : Ends rest) : read? (Integer.text n ++ rest) = some (.int n, rest) := by
  rcases (isToken_text n).read? hl hu h with hread | ⟨rfl, -⟩
  · exact hread
  · have hsign : Integer.text 0 ++ rest = '0' :: rest := rfl
    rw [hsign, (isWhole_natText 0).read? false (by decide) h rfl]
    rfl

end Number
end ResourceTemplate
