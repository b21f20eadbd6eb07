import ResourceTemplate.Codec.Basic

namespace ResourceTemplate

theorem Utf8.decode?_encode (s : String) : decode? (encode s) = some s := by
  have hbytes : ByteArray.mk (encode s).toArray = s.toList.utf8Encode := by
    rw [List.utf8Encode, encode, ← List.data_toByteArray]
  rw [decode?, hbytes, List.utf8Decode?_utf8Encode]
  simp

namespace Base64

theorem value?_digit {n : Nat} (h : n < 64) : value? (digit n) = some n := by
  decide +revert

theorem digit_ne_padding {n : Nat} (h : n < 64) : digit n ≠ '=' := by
  decide +revert

theorem ofNat_eq_of_mod {n : Nat} (b : UInt8) (h : n % 256 = b.toNat) : UInt8.ofNat n = b := by
  rw [← UInt8.toNat_inj, UInt8.toNat_ofNat', h]

/-- The four digits of three bytes read back, whatever follows. -/
theorem decodeBytes?_group {n : Nat} (h : n < 16777216) (cs : List Char) :
    decodeBytes? (digit (n / 262144) :: digit (n / 4096 % 64) :: digit (n / 64 % 64) :: digit (n % 64) :: cs) =
      (decodeBytes? cs).map fun bs => UInt8.ofNat (n / 65536) :: UInt8.ofNat (n / 256) :: UInt8.ofNat n :: bs := by
  have hlast : digit (n % 64) ≠ '=' := digit_ne_padding (by omega)
  have hn : ((n / 262144 * 64 + n / 4096 % 64) * 64 + n / 64 % 64) * 64 + n % 64 = n := by omega
  rw [decodeBytes?, value?_digit (by omega), value?_digit (by omega), value?_digit (by omega), value?_digit (by omega)]
  · simp only [Option.bind_eq_bind, Option.bind_some, hn]
    cases decodeBytes? cs <;> rfl
  · exact fun _ hd _ => hlast hd
  · exact fun hd _ => hlast hd

theorem decodeBytes?_encodeBytes : (bs : List UInt8) → decodeBytes? (encodeBytes bs) = some bs
  | [] => rfl
  | [a] => by
    have ha := a.toNat_lt
    have hn : a.toNat * 16 / 64 * 64 + a.toNat * 16 % 64 = a.toNat * 16 := by omega
    rw [encodeBytes, decodeBytes?, value?_digit (by omega), value?_digit (by omega)]
    simp only [Option.bind_eq_bind, Option.bind_some, hn]
    rw [if_pos (by simp), ofNat_eq_of_mod a (by omega)]
    rfl
  | [a, b] => by
    have ha := a.toNat_lt
    have hb := b.toNat_lt
    obtain ⟨n, hn⟩ : ∃ n, n = (a.toNat * 256 + b.toNat) * 4 := ⟨_, rfl⟩
    have hsum : (n / 4096 * 64 + n / 64 % 64) * 64 + n % 64 = n := by omega
    rw [encodeBytes, ← hn, decodeBytes?, value?_digit (by omega), value?_digit (by omega), value?_digit (by omega)]
    · simp only [Option.bind_eq_bind, Option.bind_some, hsum]
      rw [if_pos (by simp; omega), ofNat_eq_of_mod a (by omega), ofNat_eq_of_mod b (by omega)]
      rfl
    · exact digit_ne_padding (by omega)
  | a :: b :: c :: rest => by
    have ha := a.toNat_lt
    have hb := b.toNat_lt
    have hc := c.toNat_lt
    rw [encodeBytes, decodeBytes?_group (by omega), decodeBytes?_encodeBytes rest, Option.map_some,
      ofNat_eq_of_mod a (by omega), ofNat_eq_of_mod b (by omega), ofNat_eq_of_mod c (by omega)]

theorem decode?_encode (s : String) : decode? (encode s) = some s := by
  rw [decode?, encode, String.toList_ofList, decodeBytes?_encodeBytes, Option.bind_some, Utf8.decode?_encode]

end Base64

namespace Percent

theorem utf8EncodeChar_ofNat {n : Nat} (h : n < 128) : String.utf8EncodeChar (Char.ofNat n) = [UInt8.ofNat n] := by
  decide +revert

theorem lt_of_isUnreserved {b : UInt8} (h : isUnreserved b = true) : b.toNat < 128 ∧ b ≠ 37 := by
  have hpercent : (37 : UInt8).toNat = 37 := rfl
  simp only [isUnreserved, Bool.or_eq_true, Bool.and_eq_true, decide_eq_true_eq, beq_iff_eq] at h
  rw [Ne, ← UInt8.toNat_inj, hpercent]
  omega

theorem decodeBytes_cons {b : UInt8} (h : b ≠ 37) (bs : List UInt8) : decodeBytes (b :: bs) = b :: decodeBytes bs := by
  rcases bs with _ | ⟨a, _ | ⟨c, bs⟩⟩
  · rfl
  · rfl
  · rw [decodeBytes, if_neg (by simpa using h)]

theorem hexDigit?_digit {n : Nat} (h : n < 16) :
    ∃ x, String.utf8EncodeChar (Nat.digitChar n).toUpper = [x] ∧ Utf8.hexDigit? x = some n := by
  refine ⟨UInt8.ofNat (Nat.digitChar n).toUpper.toNat, ?_⟩
  decide +revert

theorem decodeBytes_encodeByte (b : UInt8) (bs : List UInt8) :
    decodeBytes ((encodeByte b).flatMap String.utf8EncodeChar ++ bs) = b :: decodeBytes bs := by
  rw [encodeByte]
  split
  · rename_i h
    obtain ⟨hb, hne⟩ := lt_of_isUnreserved h
    rw [List.flatMap_singleton, utf8EncodeChar_ofNat hb, UInt8.ofNat_toNat, List.singleton_append,
      decodeBytes_cons hne]
  · have hb := b.toNat_lt
    obtain ⟨x, hx, hxv⟩ := hexDigit?_digit (n := b.toNat / 16) (by omega)
    obtain ⟨y, hy, hyv⟩ := hexDigit?_digit (n := b.toNat % 16) (by omega)
    have hpercent : String.utf8EncodeChar '%' = [37] := by decide
    have hsum : b.toNat / 16 * 16 + b.toNat % 16 = b.toNat := by omega
    simp only [escape, List.flatMap_cons, List.flatMap_nil, hpercent, hx, hy, List.append_nil, List.cons_append,
      decodeBytes, beq_self_eq_true, if_true, hxv, hyv, hsum, UInt8.ofNat_toNat, List.nil_append]

theorem decode?_encode (s : String) : decode? (encode s) = some s := by
  have hbytes (bs : List UInt8) : decodeBytes ((bs.flatMap encodeByte).flatMap String.utf8EncodeChar) = bs := by
    induction bs with
    | nil => rfl
    | cons b bs ih => rw [List.flatMap_cons, List.flatMap_append, decodeBytes_encodeByte, ih]
  rw [decode?, encode, Utf8.encode, String.toList_ofList, hbytes, Utf8.decode?_encode]

end Percent
end ResourceTemplate
