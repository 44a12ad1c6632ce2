import CrawlCluster.Net.Ip
import CrawlCluster.Text.Quoted

set_option autoImplicit false

namespace CrawlCluster.Options

inductive NumberError where
  | empty
  | badDigit
  | tooLarge
  | tooSmall
  deriving DecidableEq, Repr

def NumberError.message : NumberError → String
  | .empty => "cannot parse integer from empty string"
  | .badDigit => "invalid digit found in string"
  | .tooLarge => "number too large to fit in target type"
  | .tooSmall => "number too small to fit in target type"

/-- Digits behind those that make up `n`, as long as the value does not pass `limit`. -/
def readDigits (limit : Nat) (passed : NumberError) : Nat → List Char → Except NumberError Nat
  | n, [] => .ok n
  | n, c :: cs =>
    if c.isDigit then
      let next := n * 10 + (c.toNat - 48)
      if next ≤ limit then readDigits limit passed next cs else .error passed
    else .error .badDigit

/-- Digits after an optional plus sign, up to `2 ^ 64 - 1`. -/
def readUInt64 (s : String) : Except NumberError Nat :=
  match s.toList with
  | [] => .error .empty
  | ['+'] => .error .badDigit
  | '+' :: cs => readDigits (UInt64.size - 1) .tooLarge 0 cs
  | cs => readDigits (UInt64.size - 1) .tooLarge 0 cs

/-- Digits after an optional sign, from `-2 ^ 63` up to `2 ^ 63 - 1`. -/
def readInt64 (s : String) : Except NumberError Int :=
  match s.toList with
  | [] => .error .empty
  | ['+'] | ['-'] => .error .badDigit
  | '+' :: cs => (readDigits 0x7FFFFFFFFFFFFFFF .tooLarge 0 cs).map Int.ofNat
  | '-' :: cs => (readDigits 0x8000000000000000 .tooSmall 0 cs).map fun n => -(n : Int)
  | cs => (readDigits 0x7FFFFFFFFFFFFFFF .tooLarge 0 cs).map Int.ofNat

def readCount (s : String) : Except String UInt64 :=
  match readUInt64 s with
  | .ok n => .ok n.toUInt64
  | .error e => .error e.message

def readPort (s : String) : Except String UInt16 :=
  match readInt64 s with
  | .ok n =>
    if 0 ≤ n && n < 65536 then .ok n.toNat.toUInt16
    else .error (n.repr ++ " is not in 0..=65535")
  | .error e => .error e.message

def readEndpoint (s : String) : Except String Net.Endpoint :=
  match Net.Endpoint.ofText? s with
  | some e => .ok e
  | none => .error "invalid socket address syntax"

/-- One ASCII character, or two that stand for a control character. -/
def delimiter? : List Char → Option UInt8
  | ['\\', 'n'] => some '\n'.toUInt8
  | ['\\', 't'] => some '\t'.toUInt8
  | ['\\', 'r'] => some '\r'.toUInt8
  | ['\\', '0'] => some 0
  | [c] => if c.toNat < 128 then some c.toUInt8 else none
  | _ => none

def readDelimiter (s : String) : Except String UInt8 :=
  match delimiter? s.toList with
  | some b => .ok b
  | none => .error ("delimiter must be a single ascii character, got " ++ Text.quoted s)

end CrawlCluster.Options
