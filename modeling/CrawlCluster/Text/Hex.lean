import CrawlCluster.Text.Utf8

set_option autoImplicit false

namespace CrawlCluster.Text.Hex

def digit? (c : Char) : Option Nat :=
  if c.isDigit then some (c.toNat - 48)
  else if 'a' ≤ c ∧ c ≤ 'f' then some (c.toNat - 87)
  else if 'A' ≤ c ∧ c ≤ 'F' then some (c.toNat - 55)
  else none

def encodeByte (b : UInt8) : List Char :=
  [Nat.digitChar (b.toNat / 16), Nat.digitChar (b.toNat % 16)]

def encode (bytes : Bytes) : String := String.ofList (bytes.flatMap encodeByte)

def decodeChars? : List Char → Option Bytes
  | [] => some []
  | [_] => none
  | a :: b :: cs => do return (16 * (← digit? a) + (← digit? b)).toUInt8 :: (← decodeChars? cs)

def decode? (s : String) : Option Bytes := decodeChars? s.toList

theorem digit?_digitChar : ∀ n < 16, digit? (Nat.digitChar n) = some n := by decide

theorem decodeChars?_flatMap (bytes : Bytes) :
    decodeChars? (bytes.flatMap encodeByte) = some bytes := by
  induction bytes with
  | nil => rfl
  | cons b bytes ih =>
    have hb := b.toNat_lt
    have h₁ := digit?_digitChar (b.toNat / 16) (by omega)
    have h₂ := digit?_digitChar (b.toNat % 16) (by omega)
    have hv : (16 * (b.toNat / 16) + b.toNat % 16).toUInt8 = b := by
      rw [Nat.div_add_mod]
      exact UInt8.ofNat_toNat
    simp only [List.flatMap_cons, encodeByte, List.cons_append, List.nil_append, decodeChars?, h₁,
      h₂, ih, Option.bind_eq_bind, Option.bind_some, hv]
    rfl

@[simp] theorem decode?_encode (bytes : Bytes) : decode? (encode bytes) = some bytes := by
  simp [decode?, encode, decodeChars?_flatMap]

end CrawlCluster.Text.Hex
