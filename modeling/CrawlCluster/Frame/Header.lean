import CrawlCluster.Peer
import CrawlCluster.Text.Utf8

/-!
Header lines. A request starts with `code F client F length`, a response with `status F length`;
the entry separator ends either line and the announced number of bytes follows it.
-/

set_option autoImplicit false

namespace CrawlCluster.Frame

/-- The longest header line a node takes, in bytes. -/
def maxHeaderLength : Nat := 1024

inductive HeaderError where
  | tooShort
  | tooLong
  | invalidLength (text : String)
  | invalidStatus (text : String)
  | notUtf8
  deriving DecidableEq, Repr

def HeaderError.message : HeaderError → String
  | .tooShort => "Header too short."
  | .tooLong => "Header too long."
  | .invalidLength text => "Invalid body length: " ++ text
  | .invalidStatus text => "Invalid status: " ++ text
  | .notUtf8 => "Header is not valid utf-8."

structure RequestHeader where
  code : String
  client : String
  length : Nat
  deriving DecidableEq, Repr

inductive Status where
  | success
  | clientError
  | serverError
  deriving DecidableEq, Repr

def Status.number : Status → Nat
  | .success => 200
  | .clientError => 400
  | .serverError => 500

def Status.ofNumber? (n : Nat) : Option Status :=
  [Status.success, .clientError, .serverError].find? (·.number == n)

structure ResponseHeader where
  status : Status
  length : Nat
  deriving DecidableEq, Repr

def parseLength (text : String) : Except HeaderError Nat :=
  match Text.Numeral.length? (Text.trim text) with
  | some n => .ok n
  | none => .error (.invalidLength text)

/-- Fields after the third are ignored. -/
def RequestHeader.parse (d : Delimiters) (line : String) : Except HeaderError RequestHeader :=
  match d.fields line with
  | code :: client :: length :: _ =>
    (parseLength length).map fun length => { code, client, length }
  | _ => .error .tooShort

/-- Fields after the second are ignored; the status is looked at before the length. -/
def ResponseHeader.parse (d : Delimiters) (line : String) : Except HeaderError ResponseHeader :=
  match d.fields line with
  | status :: length :: _ =>
    match (Text.Numeral.uint16? status).bind (Status.ofNumber? ·.toNat) with
    | some status => (parseLength length).map fun length => { status, length }
    | none => .error (.invalidStatus status)
  | _ => .error .tooShort

def RequestHeader.encode (d : Delimiters) (h : RequestHeader) : String :=
  d.joinFields [h.code, h.client, h.length.repr]

def ResponseHeader.encode (d : Delimiters) (h : ResponseHeader) : String :=
  d.joinFields [h.status.number.repr, h.length.repr]

def assemble (d : Delimiters) (line : String) (payload : Bytes) : Bytes :=
  Text.encode line ++ d.entry :: payload

end CrawlCluster.Frame
