/-!
Times. Instants are milliseconds since the epoch in 64 bits; sums and products that leave the
range stop at its ends. Lengths of time are counted in nanoseconds, up to a longest one.
-/

set_option autoImplicit false

namespace CrawlCluster.Clock

def nearest (i : Int) : Int64 :=
  Int64.ofInt (max (-0x8000000000000000) (min i 0x7FFFFFFFFFFFFFFF))

/-- What a clock shows at `ms` milliseconds: never less than zero. -/
def reading (ms : Int) : Int64 := nearest (max 0 ms)

theorem toInt_nearest (i : Int) :
    (nearest i).toInt = max (-0x8000000000000000) (min i 0x7FFFFFFFFFFFFFFF) :=
  Int64.toInt_ofInt_of_le (by omega) (by omega)

theorem toInt_reading (ms : Int) : (reading ms).toInt = max 0 (min ms 0x7FFFFFFFFFFFFFFF) := by
  rw [reading, toInt_nearest]
  omega

theorem toInt_add_one {n : Int64} (h : n < Int64.maxValue) : (n + 1).toInt = n.toInt + 1 := by
  have hmax : n.toInt < 2 ^ 63 - 1 := Int64.lt_iff_toInt_lt.1 h
  have hmin := n.le_toInt
  rw [Int64.toInt_add, Int.bmod_eq_of_le] <;> simp <;> omega

abbrev Span := Nat

namespace Span

def ofMillis (n : Nat) : Span := n * 1000000
def ofSeconds (n : Nat) : Span := n * 1000000000

/-- 2^64 - 1 seconds and the last nanosecond of another. -/
def longest : Span := UInt64.size * 1000000000 - 1

def times (s : Span) (n : Nat) : Span := min (s * n) longest

def millis (s : Span) : Nat := s / 1000000

def wholeSeconds (s : Span) : Nat := s / 1000000000

def nanosLeft (s : Span) : Nat := s % 1000000000

end Span
end CrawlCluster.Clock
