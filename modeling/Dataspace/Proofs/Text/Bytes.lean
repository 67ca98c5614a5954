import Dataspace.Proofs.Text.Form
/-!
The bytes of a text.  A character below 128 is one byte, and every byte of another character is
128 or more; so the bytes below 128 tell which of these characters a text has.  Main statements:
`mem_toUTF8_iff`, and `fromUTF8?_toUTF8`, the text is got back.
-/

namespace Dataspace.Text

theorem toList_toUTF8 (s : String) : s.toUTF8.toList = s.toList.flatMap String.utf8EncodeChar := by
  rw [toList_eq_data, String.toUTF8_eq_toByteArray, ← String.utf8Encode_toList, List.utf8Encode,
    List.toList_data_toByteArray]

/-- A text without percent signs is read as it is. -/
theorem percentDecode_toList {s : String} (h : '%' ∉ s.toList) :
    Form.percentDecode s.toList = s.toUTF8.toList := by
  rw [toList_toUTF8]
  generalize s.toList = cs at h
  induction cs with
  | nil => rw [Form.percentDecode]; rfl
  | cons c cs ih =>
      obtain ⟨hc, hcs⟩ := not_or.1 (mt List.mem_cons.2 h)
      have hone : (String.singleton c).toUTF8.toList = String.utf8EncodeChar c := by
        rw [toList_toUTF8, String.toList_singleton, List.flatMap_singleton]
      rw [Form.percentDecode_cons (Ne.symm hc), ih hcs, hone, List.flatMap_cons]

theorem fromUTF8?_toUTF8 (s : String) :
    String.fromUTF8? (ByteArray.mk s.toUTF8.toList.toArray) = some s := by
  have hbytes : ByteArray.mk s.toUTF8.toList.toArray = s.toByteArray := by
    rw [toList_eq_data, Array.toArray_toList]
    rfl
  rw [hbytes, String.fromUTF8?, dif_pos s.isValidUTF8]
  rfl

/-- A character has a byte below 128 just if it is that byte. -/
theorem mem_utf8EncodeChar_iff {b : UInt8} (hb : b.toNat < 128) (c : Char) :
    b ∈ String.utf8EncodeChar c ↔ c.toNat = b.toNat := by
  have hbyte : ∀ n < 256, (b = UInt8.ofNat n ↔ n = b.toNat) := by
    intro n hn
    rw [← UInt8.toNat_inj, UInt8.toNat_ofNat_of_lt' hn, eq_comm]
  have hvalue : c.toNat = c.val.toNat := rfl
  simp only [String.utf8EncodeChar, hvalue]
  split
  · rw [List.mem_singleton, hbyte _ (by omega)]
  · refine iff_of_false (fun hmem => ?_) (by omega)
    split at hmem
    · simp only [List.mem_cons, List.not_mem_nil, or_false] at hmem
      rcases hmem with h | h <;> rw [hbyte _ (by omega)] at h <;> omega
    · split at hmem
      · simp only [List.mem_cons, List.not_mem_nil, or_false] at hmem
        rcases hmem with h | h | h <;> rw [hbyte _ (by omega)] at h <;> omega
      · simp only [List.mem_cons, List.not_mem_nil, or_false] at hmem
        rcases hmem with h | h | h | h <;> rw [hbyte _ (by omega)] at h <;> omega

/-- A text has a byte below 128 just if it has the character that is this byte. -/
theorem mem_toUTF8_iff {c : Char} (hc : c.toNat < 128) (s : String) :
    UInt8.ofNat c.toNat ∈ s.toUTF8.toList ↔ c ∈ s.toList := by
  have hbyte : (UInt8.ofNat c.toNat).toNat = c.toNat :=
    UInt8.toNat_ofNat_of_lt' (Nat.lt_trans hc (by decide))
  have hsmall : (UInt8.ofNat c.toNat).toNat < 128 := by rwa [hbyte]
  rw [toList_toUTF8, List.mem_flatMap]
  constructor
  · rintro ⟨d, hd, hmem⟩
    rw [mem_utf8EncodeChar_iff hsmall, hbyte] at hmem
    rwa [← Char.toNat_inj.1 hmem]
  · exact fun h => ⟨c, h, (mem_utf8EncodeChar_iff hsmall c).2 hbyte.symm⟩

end Dataspace.Text
