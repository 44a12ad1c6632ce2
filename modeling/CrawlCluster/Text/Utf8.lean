/-!
Text and bytes. `decode?` is strict UTF-8; `decodeLossy` also answers for ill-formed bytes, one
U+FFFD for each longest run that starts a character and breaks off. Main statement: `decode?`
reads what `encode` writes, and nothing else reads as the same text.
-/

set_option autoImplicit false

namespace CrawlCluster

abbrev Bytes := List UInt8

namespace Text

def encode (s : String) : Bytes := s.toList.flatMap String.utf8EncodeChar

def decode? (bytes : Bytes) : Option String :=
  bytes.toByteArray.utf8Decode?.map fun cs => String.ofList cs.toList

/-- What a first byte announces: how many bytes follow it, and the range of the next one. -/
structure Lead where
  tails : Nat
  low : UInt8 := 0x80
  high : UInt8 := 0xBF

/-- The bytes that may start a character; none outside these ranges does. -/
def Lead.of (b : UInt8) : Option Lead :=
  if b < 0x80 then some { tails := 0 }
  else if 0xC2 ≤ b ∧ b ≤ 0xDF then some { tails := 1 }
  else if b = 0xE0 then some { tails := 2, low := 0xA0 }
  else if b = 0xED then some { tails := 2, high := 0x9F }
  else if 0xE1 ≤ b ∧ b ≤ 0xEF then some { tails := 2 }
  else if b = 0xF0 then some { tails := 3, low := 0x90 }
  else if 0xF1 ≤ b ∧ b ≤ 0xF3 then some { tails := 3 }
  else if b = 0xF4 then some { tails := 3, high := 0x8F }
  else none

def Lead.matched (low high : UInt8) : Nat → Bytes → Nat
  | n + 1, b :: bytes =>
    if low ≤ b ∧ b ≤ high then matched 0x80 0xBF n bytes + 1 else 0
  | _, _ => 0

def Lead.assemble (b : UInt8) (tail : Bytes) : Char :=
  let first := if tail.isEmpty then b.toNat else b.toNat % (1 <<< (6 - tail.length))
  Char.ofNat (tail.foldl (fun n t => n * 64 + t.toNat % 64) first)

/-- The first character, or U+FFFD for the bytes that break off, and the bytes after it. -/
def decodeFirst (b : UInt8) (bytes : Bytes) : Char × Bytes :=
  match Lead.of b with
  | none => (Char.ofNat 0xFFFD, bytes)
  | some lead =>
    let n := Lead.matched lead.low lead.high lead.tails bytes
    let c := if n = lead.tails then Lead.assemble b (bytes.take n) else Char.ofNat 0xFFFD
    (c, bytes.drop n)

theorem length_decodeFirst_le (b : UInt8) (bytes : Bytes) :
    (decodeFirst b bytes).2.length ≤ bytes.length := by
  unfold decodeFirst
  split <;> simp

def decodeEach : Bytes → List Char
  | [] => []
  | b :: bytes => (decodeFirst b bytes).1 :: decodeEach (decodeFirst b bytes).2
termination_by bytes => bytes.length
decreasing_by exact Nat.lt_succ_of_le (length_decodeFirst_le b bytes)

/-- Well-formed bytes as the text they spell, any others with U+FFFD where they break off. -/
def decodeLossy (bytes : Bytes) : String :=
  match decode? bytes with
  | some s => s
  | none => String.ofList (decodeEach bytes)

@[simp] theorem decode?_encode (s : String) : decode? (encode s) = some s := by
  have h : (encode s).toByteArray = s.toList.utf8Encode := rfl
  rw [decode?, h, List.utf8Decode?_utf8Encode]
  simp

@[simp] theorem decodeLossy_encode (s : String) : decodeLossy (encode s) = s := by
  simp [decodeLossy]

theorem encode_of_decode? {bytes : Bytes} {s : String} (h : decode? bytes = some s) :
    encode s = bytes := by
  obtain ⟨cs, hcs, rfl⟩ := Option.map_eq_some_iff.1 h
  have hsome : bytes.toByteArray.utf8Decode?.isSome := by simp [hcs]
  have hback := ByteArray.utf8Encode_get_utf8Decode? (h := hsome)
  simp only [hcs, Option.get_some] at hback
  have := congrArg (fun b => b.data.toList) hback
  simpa [List.utf8Encode, encode] using this

end Text
end CrawlCluster
