import CrawlCluster.Text.Hex
import CrawlCluster.Text.Numeral
import CrawlCluster.Text.Split

set_option autoImplicit false

namespace CrawlCluster.Net

inductive Ip where
  | v4 (a b c d : UInt8)
  | v6 (groups : Vector UInt16 8)
  deriving DecidableEq, Repr

namespace Ip

def loopback : Ip := .v4 127 0 0 1

def v4Text (octets : List UInt8) : String := Text.join '.' (octets.map (·.toNat.repr))

def hexText (groups : List UInt16) : String :=
  Text.join ':' (groups.map fun g => String.ofList (Nat.toDigits 16 g.toNat))

/-- Where the longest run of zeros starts and how long it is; the first of several. -/
def longestZeros (groups : List UInt16) : Nat × Nat :=
  (List.range groups.length).foldl (fun best start =>
    let length := ((groups.drop start).takeWhile (· == 0)).length
    if best.2 < length then (start, length) else best) (0, 0)

def v6Text (groups : List UInt16) : String :=
  match groups with
  | [0, 0, 0, 0, 0, 0xffff, hi, lo] =>
    "::ffff:" ++ v4Text [(hi >>> 8).toUInt8, hi.toUInt8, (lo >>> 8).toUInt8, lo.toUInt8]
  | _ =>
    let (start, length) := longestZeros groups
    if 1 < length then
      hexText (groups.take start) ++ "::" ++ hexText (groups.drop (start + length))
    else hexText groups

def text : Ip → String
  | .v4 a b c d => v4Text [a, b, c, d]
  | .v6 groups => v6Text groups.toList

def isUnspecified : Ip → Bool
  | .v4 a b c d => [a, b, c, d].all (· == 0)
  | .v6 groups => groups.toList.all (· == 0)

/-- A piece read off the front of a text, and the rest. -/
abbrev Reader (α : Type) := List Char → Option (α × List Char)

def digitValue (radix : Nat) (c : Char) : Option Nat := (Text.Hex.digit? c).filter (· < radix)

/-- All the digits that follow: at most `maxDigits` of them, with a value below `bound`. -/
def readNumber (radix bound : Nat) (maxDigits : Option Nat) (zeroFirst : Bool) : Reader Nat :=
  fun cs =>
    let digits := cs.takeWhile fun c => (digitValue radix c).isSome
    let value := (digits.filterMap (digitValue radix)).foldl (fun n d => n * radix + d) 0
    let fits := maxDigits.all (digits.length ≤ ·)
    let padded := 1 < digits.length && digits.head? == some '0'
    if digits.isEmpty || !fits || (padded && !zeroFirst) || bound ≤ value then none
    else some (value, cs.dropWhile fun c => (digitValue radix c).isSome)

def readChar (c : Char) : Reader Unit
  | [] => none
  | x :: cs => if x = c then some ((), cs) else none

def readOctet (cs : List Char) : Option (UInt8 × List Char) :=
  (readNumber 10 256 (some 3) false cs).map fun (n, cs) => (n.toUInt8, cs)

def readV4 : Reader (UInt8 × UInt8 × UInt8 × UInt8) := fun cs => do
  let (a, cs) ← readOctet cs
  let (_, cs) ← readChar '.' cs
  let (b, cs) ← readOctet cs
  let (_, cs) ← readChar '.' cs
  let (c, cs) ← readOctet cs
  let (_, cs) ← readChar '.' cs
  let (d, cs) ← readOctet cs
  return ((a, b, c, d), cs)

/-- What `read` reads, behind a colon unless it comes first. -/
def separated {α : Type} (first : Bool) (read : Reader α) : Reader α := fun cs =>
  if first then read cs else (readChar ':' cs).bind fun (_, cs) => read cs

def pairOctets (hi lo : UInt8) : UInt16 := hi.toUInt16 * 256 + lo.toUInt16

/-- As many groups as there are, up to `left`; whether a version 4 address ended them. -/
def readGroups : (left : Nat) → (first : Bool) → List Char → List UInt16 × Bool × List Char
  | 0, _, cs => ([], false, cs)
  | left + 1, first, cs =>
    match (if 1 ≤ left then separated first readV4 cs else none) with
    | some ((a, b, c, d), cs) => ([pairOctets a b, pairOctets c d], true, cs)
    | none =>
      match separated first (readNumber 16 65536 (some 4) true) cs with
      | none => ([], false, cs)
      | some (g, cs) =>
        let (groups, embedded, cs) := readGroups left false cs
        (g.toUInt16 :: groups, embedded, cs)

def ofGroups? (groups : List UInt16) : Option Ip :=
  if h : groups.toArray.size = 8 then some (.v6 ⟨groups.toArray, h⟩) else none

def readV6 : Reader Ip := fun cs => do
  let (front, embedded, cs) := readGroups 8 true cs
  if front.length = 8 then return (← ofGroups? front, cs)
  if embedded then none
  let (_, cs) ← readChar ':' cs
  let (_, cs) ← readChar ':' cs
  let (back, _, cs) := readGroups (7 - front.length) true cs
  let zeros := List.replicate (8 - front.length - back.length) 0
  return (← ofGroups? (front ++ zeros ++ back), cs)

def ofText? (s : String) : Option Ip :=
  let v4 := (readV4 s.toList).map fun ((a, b, c, d), cs) => (Ip.v4 a b c d, cs)
  match v4.or (readV6 s.toList) with
  | some (ip, []) => some ip
  | _ => none

end Ip

/-- An address and a port; version 6 may name a zone. -/
structure Endpoint where
  ip : Ip
  port : UInt16
  zone : UInt32 := 0
  deriving DecidableEq, Repr

namespace Endpoint

def text (e : Endpoint) : String :=
  match e.ip with
  | .v4 .. => e.ip.text ++ ":" ++ e.port.toNat.repr
  | .v6 _ =>
    let zone := if e.zone = 0 then "" else "%" ++ e.zone.toNat.repr
    "[" ++ e.ip.text ++ zone ++ "]:" ++ e.port.toNat.repr

def readPort : Ip.Reader UInt16 := fun cs => do
  let (_, cs) ← Ip.readChar ':' cs
  let (port, cs) ← Ip.readNumber 10 65536 none true cs
  return (port.toUInt16, cs)

def readV4 : Ip.Reader Endpoint := fun cs => do
  let ((a, b, c, d), cs) ← Ip.readV4 cs
  let (port, cs) ← readPort cs
  return ({ ip := .v4 a b c d, port }, cs)

def readZone : Ip.Reader UInt32 := fun cs =>
  match Ip.readChar '%' cs with
  | none => some (0, cs)
  | some (_, cs) => (Ip.readNumber 10 UInt32.size none true cs).map fun (n, cs) => (n.toUInt32, cs)

def readV6 : Ip.Reader Endpoint := fun cs => do
  let (_, cs) ← Ip.readChar '[' cs
  let (ip, cs) ← Ip.readV6 cs
  let (zone, cs) ← readZone cs
  let (_, cs) ← Ip.readChar ']' cs
  let (port, cs) ← readPort cs
  return ({ ip, port, zone }, cs)

def ofText? (s : String) : Option Endpoint :=
  match (readV4 s.toList).or (readV6 s.toList) with
  | some (e, []) => some e
  | _ => none

end Endpoint
end CrawlCluster.Net
