import CrawlCluster.Text.Utf8
import Mathlib.Data.List.Flatten

set_option autoImplicit false

namespace CrawlCluster.Text

theorem encode_sublist {s t : String} (h : s.toList.Sublist t.toList) :
    (encode s).Sublist (encode t) :=
  List.Sublist.flatMap h _

theorem length_encode_le (s : String) : (encode s).length ≤ 4 * s.toList.length := by
  rw [encode]
  induction s.toList with
  | nil => exact Nat.le_refl 0
  | cons c cs ih =>
    have hc := c.utf8Size_le_four
    rw [List.flatMap_cons, List.length_append, String.length_utf8EncodeChar, List.length_cons]
    omega

theorem toNat_ofNat_byte (b : UInt8) : (Char.ofNat b.toNat).toNat = b.toNat := by
  have hb := b.toNat_lt
  have hvalid : b.toNat.isValidChar := .inl (by omega)
  unfold Char.ofNat
  rw [dif_pos hvalid]
  rfl

theorem ofNat_byte_inj {a b : UInt8} : Char.ofNat a.toNat = Char.ofNat b.toNat ↔ a = b := by
  constructor
  · intro h
    apply UInt8.toNat_inj.1
    rw [← toNat_ofNat_byte a, h, toNat_ofNat_byte]
  · rintro rfl
    rfl

theorem mem_utf8EncodeChar_iff {b : UInt8} {c : Char} (hb : b < 128) :
    b ∈ String.utf8EncodeChar c ↔ c = Char.ofNat b.toNat := by
  have hb : b.toNat < 128 := hb
  have hval : c.val.toNat = c.toNat := rfl
  have hchar : c = Char.ofNat b.toNat ↔ c.toNat = b.toNat := by
    rw [← Char.toNat_inj, toNat_ofNat_byte]
  unfold String.utf8EncodeChar
  simp only [hchar, hval]
  split
  · simp [← UInt8.toNat_inj]
    omega
  · split
    · simp [← UInt8.toNat_inj]
      omega
    · split <;> simp [← UInt8.toNat_inj] <;> omega

theorem mem_encode_iff {b : UInt8} {s : String} (hb : b < 128) :
    b ∈ encode s ↔ Char.ofNat b.toNat ∈ s.toList := by
  simp only [encode, List.mem_flatMap, mem_utf8EncodeChar_iff hb]
  constructor
  · rintro ⟨c, hc, rfl⟩
    exact hc
  · intro h
    exact ⟨_, h, rfl⟩

end CrawlCluster.Text
