import CrawlCluster.Text.Numeral
import Mathlib.Data.List.Induction

/-!
Numbers as they are written, against the texts they may be read from. Main statements: a number is
read back with any blanks taken off, and whatever text a count of bytes was read from, the count as
it is written is made of characters of that text in their order, so it is no longer and brings in
no character of its own.
-/

set_option autoImplicit false

namespace CrawlCluster.Text

theorem toList_trim_sublist (s : String) : (trim s).toList.Sublist s.toList := by
  rw [trim, trimBy, dropWhileEnd, String.toList_ofList]
  have hend := (List.dropWhile_suffix isBlank (l := (s.toList.dropWhile isBlank).reverse)).sublist
  have hsub := List.reverse_sublist.2 hend
  rw [List.reverse_reverse] at hsub
  exact hsub.trans (List.dropWhile_suffix isBlank).sublist

namespace Numeral

theorem not_isBlank_minus : isBlank '-' = false := by decide

theorem toNat_of_isDigit {c : Char} (h : c.isDigit = true) : 48 ≤ c.toNat ∧ c.toNat ≤ 57 := by
  simp only [Char.isDigit, Bool.and_eq_true, decide_eq_true_eq, UInt32.le_iff_toNat_le] at h
  exact h

theorem digit_lt {c : Char} (h : c.isDigit = true) : c.toNat - '0'.toNat < 10 := by
  have hc := toNat_of_isDigit h
  have hzero : '0'.toNat = 48 := rfl
  omega

theorem digitChar_of_isDigit {c : Char} (h : c.isDigit = true) :
    Nat.digitChar (c.toNat - '0'.toNat) = c := by
  have hc := toNat_of_isDigit h
  have hzero : '0'.toNat = 48 := rfl
  apply Char.toNat_inj.1
  rw [Nat.toNat_digitChar_of_lt_ten (digit_lt h)]
  omega

/-- By the last digit: it is written last, after what is written for the digits before it unless
those are all zeros. -/
theorem toDigits_sublist {cs : List Char} (hne : cs ≠ []) (h : ∀ c ∈ cs, c.isDigit = true) :
    (Nat.toDigits 10 (Nat.ofDigitChars 10 cs 0)).Sublist cs := by
  induction cs using List.reverseRecOn with
  | nil => exact absurd rfl hne
  | append_singleton cs c ih =>
    have hc := h c (by simp)
    have hlast : Nat.toDigits 10 (c.toNat - '0'.toNat) = [c] := by
      rw [Nat.toDigits_of_lt_base (digit_lt hc), digitChar_of_isDigit hc]
    rw [Nat.ofDigitChars_append, Nat.ofDigitChars_cons, Nat.ofDigitChars_nil]
    rcases Nat.eq_zero_or_pos (Nat.ofDigitChars 10 cs 0) with hzero | hpos
    · rw [hzero, Nat.mul_zero, Nat.zero_add, hlast]
      exact List.sublist_append_right ..
    · have hfront : cs ≠ [] := by
        rintro rfl
        exact absurd hpos (Nat.lt_irrefl 0)
      rw [← Nat.toDigits_append_toDigits (by decide) hpos (digit_lt hc), hlast]
      exact (ih hfront fun d hd => h d (by simp [hd])).append (.refl _)

theorem toDigits_sublist_of_digits? {cs : List Char} {n : Nat} (h : digits? cs = some n) :
    (Nat.toDigits 10 n).Sublist cs := by
  unfold digits? at h
  split at h
  · next hcs =>
    cases h
    exact toDigits_sublist hcs.1 (by simpa using hcs.2)
  · cases h

theorem toDigits_sublist_of_natural? {cs : List Char} {n : Nat} (h : natural? cs = some n) :
    (Nat.toDigits 10 n).Sublist cs := by
  unfold natural? at h
  split at h
  · exact (toDigits_sublist_of_digits? h).cons _
  · exact toDigits_sublist_of_digits? h

theorem length?_eq_some_iff {s : String} {n : Nat} :
    length? s = some n ↔ natural? s.toList = some n ∧ n < UInt64.size := by
  simp [length?, below?, Option.filter_eq_some_iff]

/-- A count of bytes with any blanks around it, a sign or zeros before it, is not written longer
than it was found. -/
theorem repr_sublist_of_length? {text : String} {n : Nat} (h : length? (trim text) = some n) :
    n.repr.toList.Sublist text.toList := by
  have hdigits := toDigits_sublist_of_natural? (length?_eq_some_iff.1 h).1
  rw [Nat.repr_eq_ofList_toDigits, String.toList_ofList]
  exact hdigits.trans (toList_trim_sublist text)

theorem isDigit_of_mem_repr {n : Nat} {c : Char} (h : c ∈ n.repr.toList) : c.isDigit = true := by
  rw [Nat.repr_eq_ofList_toDigits, String.toList_ofList] at h
  exact Nat.isDigit_of_mem_toDigits (by decide) (by decide) h

theorem not_mem_repr {c : Char} (h : c.isDigit = false) (n : Nat) : c ∉ n.repr.toList := by
  intro hc
  rw [isDigit_of_mem_repr hc] at h
  contradiction

@[simp] theorem trim_repr (n : Nat) : trim n.repr = n.repr :=
  trimBy_of_forall fun _ hc => not_isBlank_of_isDigit (isDigit_of_mem_repr hc)

theorem length?_repr {n : Nat} (h : n < UInt64.size) : length? (trim n.repr) = some n := by
  rw [trim_repr]
  exact below?_repr h

theorem mem_repr_int {i : Int} {c : Char} (h : c ∈ i.repr.toList) : c.isDigit = true ∨ c = '-' := by
  cases i with
  | ofNat n => exact .inl (isDigit_of_mem_repr h)
  | negSucc n =>
    rw [Int.repr, String.toList_append] at h
    rcases List.mem_append.1 h with h | h
    · exact .inr (by simpa using h)
    · exact .inl (isDigit_of_mem_repr h)

theorem not_mem_repr_int {c : Char} (hdigit : c.isDigit = false) (hminus : c ≠ '-') (i : Int) :
    c ∉ i.repr.toList := by
  intro hc
  rcases mem_repr_int hc with h | h
  · rw [h] at hdigit
    contradiction
  · exact hminus h

@[simp] theorem trim_repr_int (i : Int) : trim i.repr = i.repr := by
  refine trimBy_of_forall fun c hc => ?_
  rcases mem_repr_int hc with h | rfl
  · exact not_isBlank_of_isDigit h
  · exact not_isBlank_minus

end Numeral
end CrawlCluster.Text
