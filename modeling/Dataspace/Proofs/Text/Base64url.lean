import Dataspace.Proofs.Text.Bytes
import Dataspace.Text.Base64url
/-!
What is read from base64 digits.  A digit has one value, and three bytes and four digits are the
same number.  Main statement: `decode_encode`, a text is read back whatever its length.
-/

namespace Dataspace.Text.Base64url

theorem value?_digit : ∀ n < 64, value? (digit n) = some n := by
  decide

theorem decodeBytes_encodeBytes (bytes : List UInt8) :
    decodeBytes (encodeBytes bytes) = some bytes := by
  -- The digits of each group make one number again, from which its bytes are taken.
  induction bytes using encodeBytes.induct with
  | case1 => rfl
  | case2 a =>
      have ha : a.toNat < 256 := a.toNat_lt
      have hfirst := value?_digit (a.toNat / 4) (by omega)
      have hlast := value?_digit (a.toNat % 4 * 16) (by omega)
      have hn : a.toNat / 4 * 64 + a.toNat % 4 * 16 = a.toNat * 16 := by omega
      have hspare : a.toNat * 16 % 16 = 0 := Nat.mul_mod_left ..
      have hbyte : a.toNat * 16 / 16 = a.toNat := Nat.mul_div_cancel _ (by decide)
      simp only [encodeBytes, decodeBytes, hfirst, hlast, Option.bind_eq_bind, Option.bind_some, hn,
        hspare, if_true, hbyte, UInt8.ofNat_toNat]
  | case3 a b =>
      have ha : a.toNat < 256 := a.toNat_lt
      have hb : b.toNat < 256 := b.toNat_lt
      simp only [encodeBytes, decodeBytes]
      generalize hsum : a.toNat * 256 + b.toNat = m
      have hfirst := value?_digit (m / 1024) (by omega)
      have hmiddle := value?_digit (m / 16 % 64) (by omega)
      have hlast := value?_digit (m % 16 * 4) (by omega)
      have hn : (m / 1024 * 64 + m / 16 % 64) * 64 + m % 16 * 4 = m * 4 := by omega
      have hspare : m * 4 % 4 = 0 := Nat.mul_mod_left ..
      have ha' : m * 4 / 1024 = a.toNat := by omega
      have hb' : m * 4 / 4 % 256 = b.toNat := by omega
      simp only [hfirst, hmiddle, hlast, Option.bind_eq_bind, Option.bind_some, hn, hspare, if_true,
        ha', hb', UInt8.ofNat_toNat]
  | case4 a b c rest ih =>
      have ha : a.toNat < 256 := a.toNat_lt
      have hb : b.toNat < 256 := b.toNat_lt
      have hc : c.toNat < 256 := c.toNat_lt
      simp only [encodeBytes, decodeBytes]
      generalize hsum : (a.toNat * 256 + b.toNat) * 256 + c.toNat = m
      have hfirst := value?_digit (m / 262144) (by omega)
      have hsecond := value?_digit (m / 4096 % 64) (by omega)
      have hthird := value?_digit (m / 64 % 64) (by omega)
      have hlast := value?_digit (m % 64) (by omega)
      have hn : ((m / 262144 * 64 + m / 4096 % 64) * 64 + m / 64 % 64) * 64 + m % 64 = m := by omega
      have ha' : m / 65536 = a.toNat := by omega
      have hb' : m / 256 % 256 = b.toNat := by omega
      have hc' : m % 256 = c.toNat := by omega
      simp only [hfirst, hsecond, hthird, hlast, Option.bind_eq_bind, Option.bind_some, hn, ih,
        ha', hb', hc', UInt8.ofNat_toNat]

/-- A text is read back from its digits. -/
theorem decode_encode (s : String) : decode (encode s) = some s := by
  rw [decode, encode, String.toList_ofList, decodeBytes_encodeBytes]
  exact fromUTF8?_toUTF8 s

end Dataspace.Text.Base64url
