import ResourceTemplate.Proofs.Catalog.ResourceIds
import ResourceTemplate.Proofs.Codec

namespace ResourceTemplate

namespace Utf8

theorem encode_injective {s t : String} (h : encode s = encode t) : s = t := by
  have hread := congrArg decode? h
  rw [decode?_encode, decode?_encode] at hread
  exact Option.some.inj hread

theorem encode_join (texts : List String) : encode (String.join texts) = texts.flatMap encode := by
  unfold encode
  rw [String.toList_join, List.flatMap_assoc]

theorem digitChar_injective {m n : Nat} (hm : m < 16) (hn : n < 16) (h : Nat.digitChar m = Nat.digitChar n) :
    m = n := by
  have hall : ∀ m < 16, ∀ n < 16, Nat.digitChar m = Nat.digitChar n → m = n := by decide
  exact hall m hm n hn h

theorem hex_cons (b : UInt8) (bs : List UInt8) :
    hex (b :: bs) = Nat.digitChar (b.toNat / 16) :: Nat.digitChar (b.toNat % 16) :: hex bs := rfl

theorem hex_injective {as bs : List UInt8} (h : hex as = hex bs) : as = bs := by
  induction as generalizing bs with
  | nil =>
    cases bs with
    | nil => rfl
    | cons b bs => cases h
  | cons a as ih =>
    cases bs with
    | nil => cases h
    | cons b bs =>
      rw [hex_cons, hex_cons] at h
      obtain ⟨hhigh, h⟩ := List.cons.inj h
      obtain ⟨hlow, hrest⟩ := List.cons.inj h
      have ha := a.toNat_lt
      have hb := b.toNat_lt
      have hdiv := digitChar_injective (by omega) (by omega) hhigh
      have hmod := digitChar_injective (by omega) (by omega) hlow
      have hab : a = b := UInt8.toNat_inj.mp (by omega)
      rw [hab, ih hrest]

theorem hyphen_notMem_hex (bs : List UInt8) : '-' ∉ hex bs := by
  have hdigit : ∀ n < 16, '-' ≠ Nat.digitChar n := by decide
  intro hm
  obtain ⟨b, -, hb⟩ := List.mem_flatMap.mp hm
  have hlt := b.toNat_lt
  rcases List.mem_cons.mp hb with hb | hb
  · exact hdigit _ (by omega) hb
  · exact hdigit _ (by omega) (List.mem_singleton.mp hb)

end Utf8

namespace Guid

theorem swapFields_swapFields (bytes : List UInt8) : swapFields (swapFields bytes) = bytes := by
  fun_cases swapFields bytes with
  | case1 a b c d e f g h rest => rfl
  | case2 short hshort =>
    unfold swapFields
    split
    · exact absurd rfl (hshort _ _ _ _ _ _ _ _ _)
    · rfl

theorem length_swapFields (bytes : List UInt8) : (swapFields bytes).length = bytes.length := by
  unfold swapFields
  split <;> rfl

/-- Sixteen bytes can be read off the groups in which they are written. -/
theorem text_injective {as bs : List UInt8} (ha : as.length ≤ 16) (hb : bs.length ≤ 16) (h : text as = text bs) :
    as = bs := by
  have hgroups (bytes : List UInt8) : ∀ group ∈ [Utf8.hex ((bytes.drop 0).take 4), Utf8.hex ((bytes.drop 4).take 2),
      Utf8.hex ((bytes.drop 6).take 2), Utf8.hex ((bytes.drop 8).take 2), Utf8.hex ((bytes.drop 10).take 6)],
      '-' ∉ group := by
    simp only [List.forall_mem_cons, List.not_mem_nil, false_imp_iff, implies_true, and_true]
    exact ⟨Utf8.hyphen_notMem_hex _, Utf8.hyphen_notMem_hex _, Utf8.hyphen_notMem_hex _, Utf8.hyphen_notMem_hex _,
      Utf8.hyphen_notMem_hex _⟩
  have hjoined := congrArg (List.splitOn '-') (String.ofList_inj.mp h)
  rw [List.splitOn_intercalate '-' (hgroups as) (by simp), List.splitOn_intercalate '-' (hgroups bs) (by simp)]
    at hjoined
  simp only [List.cons.injEq, and_true] at hjoined
  obtain ⟨h0, h4, h6, h8, h10⟩ := hjoined
  have hwhole (bytes : List UInt8) (hl : bytes.length ≤ 16) : bytes = (bytes.drop 0).take 4 ++ ((bytes.drop 4).take 2 ++
      ((bytes.drop 6).take 2 ++ ((bytes.drop 8).take 2 ++ (bytes.drop 10).take 6))) := by
    have hcut (i n : Nat) : (bytes.drop i).take n ++ bytes.drop (i + n) = bytes.drop i := by
      rw [← List.drop_drop, List.take_append_drop]
    have hlast : (bytes.drop 10).take 6 = bytes.drop 10 := by
      rw [List.take_of_length_le]
      rw [List.length_drop]
      omega
    rw [hlast, hcut 8 2, hcut 6 2, hcut 4 2, hcut 0 4, List.drop_zero]
  rw [hwhole as ha, hwhole bs hb, Utf8.hex_injective h0, Utf8.hex_injective h4, Utf8.hex_injective h6,
    Utf8.hex_injective h8, Utf8.hex_injective h10]

/-- The same is digested for two lists exactly when they are the same put together. -/
theorem seed_eq_iff {ps qs : List String} : seed ps = seed qs ↔ String.join ps = String.join qs := by
  unfold seed
  rw [List.append_cancel_left_eq, ← Utf8.encode_join, ← Utf8.encode_join]
  exact ⟨Utf8.encode_injective, congrArg _⟩

/-- An identifier tells the bytes of the digest that it is made of. -/
theorem ofTexts_eq_iff {ps qs : List String} : ofTexts ps = ofTexts qs ↔
    (Digest.Sha256.hash (seed ps)).take 16 = (Digest.Sha256.hash (seed qs)).take 16 := by
  have hlength (bytes : List UInt8) : (swapFields (bytes.take 16)).length ≤ 16 := by
    rw [length_swapFields]
    exact List.length_take_le 16 bytes
  refine ⟨fun h => ?_, fun h => congrArg (fun bytes => text (swapFields bytes)) h⟩
  have hswapped := congrArg swapFields (text_injective (hlength _) (hlength _) h)
  rwa [swapFields_swapFields, swapFields_swapFields] at hswapped

end Guid

namespace Catalog.Texts

theorem ofTexts_ok (f : List String → String) (name : String) {texts : List String} (h : texts ≠ []) :
    ofTexts f ⟨name, texts.map .str⟩ = .ok (.str (f texts)) := by
  have hcount : (⟨name, texts.map .str⟩ : Args).expect 1 none = .ok () := by
    obtain ⟨t, rest, rfl⟩ := List.exists_cons_of_ne_nil h
    simp [Args.expect, Args.expectCount]
  unfold ofTexts
  rw [hcount, Args.strings_eq]
  rfl

/-- What is digested for two lists of texts is the same exactly when the lists are the same put together. So are the
identifiers of the lists, where the sixteen bytes that are taken of the digests tell apart what is digested for them. -/
theorem guid_eq_iff_join_eq (ps qs : List String) :
    (Guid.seed ps = Guid.seed qs ↔ String.join ps = String.join qs) ∧
      (((Digest.Sha256.hash (Guid.seed ps)).take 16 = (Digest.Sha256.hash (Guid.seed qs)).take 16 →
          Guid.seed ps = Guid.seed qs) → ps ≠ [] → qs ≠ [] → ∀ name name', ∃ a b : String,
        ofTexts Guid.ofTexts ⟨name, ps.map .str⟩ = .ok (.str a) ∧
          ofTexts Guid.ofTexts ⟨name', qs.map .str⟩ = .ok (.str b) ∧ (a = b ↔ String.join ps = String.join qs)) := by
  refine ⟨Guid.seed_eq_iff, fun hfree hps hqs name name' => ?_⟩
  refine ⟨_, _, ofTexts_ok Guid.ofTexts name hps, ofTexts_ok Guid.ofTexts name' hqs, ?_⟩
  rw [Guid.ofTexts_eq_iff, ← Guid.seed_eq_iff]
  exact ⟨hfree, fun h => by rw [h]⟩

theorem guid_eq_iff_join_eq_letters :
    (Digest.Sha256.hash (Guid.seed ["a", "b"])).take 16 ≠ (Digest.Sha256.hash (Guid.seed ["a", "", "c"])).take 16 ∧
      ∃ a b : String, ofTexts Guid.ofTexts ⟨"guid", [.str "a", .str "b"]⟩ = .ok (.str a) ∧
        ofTexts Guid.ofTexts ⟨"guid", [.str "a", .str "", .str "c"]⟩ = .ok (.str b) ∧ a ≠ b := by
  have hdigests : (Digest.Sha256.hash (Guid.seed ["a", "b"])).take 16 ≠
      (Digest.Sha256.hash (Guid.seed ["a", "", "c"])).take 16 := by
    decide +kernel
  obtain ⟨a, b, ha, hb, hab⟩ := (guid_eq_iff_join_eq ["a", "b"] ["a", "", "c"]).2 (fun h => absurd h hdigests)
    (by decide) (by decide) "guid" "guid"
  exact ⟨hdigests, a, b, ha, hb, fun h => absurd (hab.mp h) (by decide)⟩

/-- Where a text ends is not digested: lists that differ have the same identifiers. -/
theorem guid_loses_boundaries :
    (["a", "b"] : List String) ≠ ["ab"] ∧ Guid.seed ["a", "b"] = Guid.seed ["ab"] ∧
      ∃ s : String, ofTexts Guid.ofTexts ⟨"guid", [.str "a", .str "b"]⟩ = .ok (.str s) ∧
        ofTexts Guid.ofTexts ⟨"guid", [.str "ab"]⟩ = .ok (.str s) := by
  have hseed : Guid.seed ["a", "b"] = Guid.seed ["ab"] := by decide
  have hguid : Guid.ofTexts ["a", "b"] = Guid.ofTexts ["ab"] := by
    unfold Guid.ofTexts
    rw [hseed]
  have hpair := ofTexts_ok Guid.ofTexts "guid" (List.cons_ne_nil "a" ["b"])
  have hone := ofTexts_ok Guid.ofTexts "guid" (List.cons_ne_nil "ab" [])
  exact ⟨by decide, hseed, Guid.ofTexts ["a", "b"], hpair, hguid ▸ hone⟩

end Catalog.Texts

end ResourceTemplate
