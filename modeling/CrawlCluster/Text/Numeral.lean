import CrawlCluster.Text.Blank

set_option autoImplicit false

namespace CrawlCluster.Text.Numeral

def digits? (cs : List Char) : Option Nat :=
  if cs ≠ [] ∧ cs.all Char.isDigit then some (Nat.ofDigitChars 10 cs 0) else none

/-- Digits after an optional plus sign. -/
def natural? : List Char → Option Nat
  | '+' :: cs => digits? cs
  | cs => digits? cs

/-- Digits after an optional sign. -/
def integer? : List Char → Option Int
  | '+' :: cs => (digits? cs).map Int.ofNat
  | '-' :: cs => (digits? cs).map fun n => -(n : Int)
  | cs => (digits? cs).map Int.ofNat

def below? (bound : Nat) (s : String) : Option Nat :=
  (natural? s.toList).filter (· < bound)

def within? (bound : Int) (s : String) : Option Int :=
  (integer? s.toList).filter fun i => -bound ≤ i && i < bound

def uint16? (s : String) : Option UInt16 := (below? UInt16.size s).map UInt16.ofNat
def uint32? (s : String) : Option UInt32 := (below? UInt32.size s).map UInt32.ofNat
def uint64? (s : String) : Option UInt64 := (below? UInt64.size s).map UInt64.ofNat
def int32? (s : String) : Option Int32 := (within? 0x80000000 s).map Int32.ofInt
def int64? (s : String) : Option Int64 := (within? 0x8000000000000000 s).map Int64.ofInt

/-- A count of bytes: below 2^64. -/
def length? (s : String) : Option Nat := below? UInt64.size s

theorem digits?_toDigits (n : Nat) : digits? (Nat.toDigits 10 n) = some n := by
  have h : (Nat.toDigits 10 n).all Char.isDigit := by
    simpa using fun c hc => Nat.isDigit_of_mem_toDigits (by decide) (by decide) hc
  simp [digits?, h]

theorem head_toDigits_isDigit {n : Nat} {c : Char} {cs : List Char}
    (h : Nat.toDigits 10 n = c :: cs) : c.isDigit = true :=
  Nat.isDigit_of_mem_toDigits (n := n) (b := 10) (by decide) (by decide) (by simp [h])

@[simp] theorem natural?_toDigits (n : Nat) : natural? (Nat.toDigits 10 n) = some n := by
  rw [natural?.eq_2, digits?_toDigits]
  intro cs h
  exact absurd (head_toDigits_isDigit h) (by decide)

theorem integer?_toDigits (n : Nat) : integer? (Nat.toDigits 10 n) = some (n : Int) := by
  rw [integer?.eq_3, digits?_toDigits]
  · rfl
  · intro cs h
    exact absurd (head_toDigits_isDigit h) (by decide)
  · intro cs h
    exact absurd (head_toDigits_isDigit h) (by decide)

theorem below?_repr {bound n : Nat} (h : n < bound) : below? bound n.repr = some n := by
  simp [below?, h]

@[simp] theorem integer?_repr (i : Int) : integer? i.repr.toList = some i := by
  cases i with
  | ofNat n => simpa [Int.repr] using integer?_toDigits n
  | negSucc n =>
    simp [Int.repr, integer?, digits?_toDigits]
    omega

theorem within?_repr {bound i : Int} (h₁ : -bound ≤ i) (h₂ : i < bound) :
    within? bound i.repr = some i := by
  simp [within?, h₁, h₂]

@[simp] theorem uint16?_repr (n : UInt16) : uint16? n.toNat.repr = some n := by
  simp [uint16?, below?_repr n.toNat_lt_size]

@[simp] theorem uint64?_repr (n : UInt64) : uint64? n.toNat.repr = some n := by
  simp [uint64?, below?_repr n.toNat_lt_size]

@[simp] theorem int32?_repr (i : Int32) : int32? i.toInt.repr = some i := by
  have h₁ := i.le_toInt
  have h₂ := i.toInt_lt
  rw [int32?, within?_repr (by omega) (by omega)]
  simp

@[simp] theorem int64?_repr (i : Int64) : int64? i.toInt.repr = some i := by
  have h₁ := i.le_toInt
  have h₂ := i.toInt_lt
  rw [int64?, within?_repr (by omega) (by omega)]
  simp

end CrawlCluster.Text.Numeral
