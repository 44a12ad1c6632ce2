import CrawlCluster.Frame.Message

/-!
Reading frames off the bytes of a connection. A header that cannot be used costs its line only:
reading goes on behind it. What is left when a frame is not complete is the end of the stream.
-/

set_option autoImplicit false

namespace CrawlCluster.Frame

inductive Received (α : Type) where
  | frame (value : α)
  | rejected (error : HeaderError)
  | ended
  deriving DecidableEq, Repr

def cutAt (stop : UInt8) : Bytes → Option (Bytes × Bytes)
  | [] => none
  | b :: bytes =>
    if b = stop then some ([], bytes)
    else (cutAt stop bytes).map fun (line, rest) => (b :: line, rest)

def decodeHeader (line : Bytes) : Except HeaderError String :=
  if maxHeaderLength < line.length then .error .tooLong
  else
    match Text.decode? line with
    | some text => .ok text
    | none => .error .notUtf8

def readHeader (d : Delimiters) (bytes : Bytes) : Option (Except HeaderError String × Bytes) :=
  (cutAt d.entry bytes).map fun (line, rest) => (decodeHeader line, rest)

/-- The next frame, given how a header line is understood and a payload is put to it. -/
def readFrame {η α : Type} (d : Delimiters) (parse : String → Except HeaderError η)
    (length : η → Nat) (make : η → Bytes → α) (bytes : Bytes) : Received α × Bytes :=
  match readHeader d bytes with
  | none => (.ended, [])
  | some (line, rest) =>
    match line.bind parse with
    | .error e => (.rejected e, rest)
    | .ok header =>
      if length header ≤ rest.length then
        (.frame (make header (rest.take (length header))), rest.drop (length header))
      else (.ended, [])

def readRequest (d : Delimiters) : Bytes → Received Request × Bytes :=
  readFrame d (RequestHeader.parse d) (·.length) fun h body => ⟨h.code, h.client, body⟩

def readResponse (d : Delimiters) : Bytes → Received Response × Bytes :=
  readFrame d (ResponseHeader.parse d) (·.length) fun h message => ⟨h.status, message⟩

theorem cutAt_append {stop : UInt8} {line : Bytes} (h : stop ∉ line) (rest : Bytes) :
    cutAt stop (line ++ stop :: rest) = some (line, rest) := by
  induction line with
  | nil => simp [cutAt]
  | cons b line ih =>
    simp only [List.mem_cons, not_or] at h
    simp [cutAt, Ne.symm h.1, ih h.2]

theorem cutAt_eq_none_iff {stop : UInt8} {bytes : Bytes} :
    cutAt stop bytes = none ↔ stop ∉ bytes := by
  induction bytes with
  | nil => simp [cutAt]
  | cons b bytes ih =>
    by_cases h : b = stop
    · simp [cutAt, h]
    · simp [cutAt, h, ih, Ne.symm h]

theorem length_cutAt_lt {stop : UInt8} {bytes line rest : Bytes}
    (h : cutAt stop bytes = some (line, rest)) : rest.length < bytes.length := by
  induction bytes generalizing line with
  | nil => simp [cutAt] at h
  | cons b bytes ih =>
    rw [cutAt] at h
    split at h
    · simp only [Option.some.injEq, Prod.mk.injEq] at h
      simp [← h.2]
    · obtain ⟨⟨l, r⟩, hr, he⟩ := Option.map_eq_some_iff.1 h
      simp only [Prod.mk.injEq] at he
      exact Nat.lt_succ_of_lt (ih (he.2 ▸ hr))

/-- A frame or a rejected header uses up at least the byte that ends its line. -/
theorem length_readFrame_lt {η α : Type} {d : Delimiters}
    {parse : String → Except HeaderError η} {length : η → Nat} {make : η → Bytes → α}
    {bytes : Bytes} (h : (readFrame d parse length make bytes).1 ≠ .ended) :
    (readFrame d parse length make bytes).2.length < bytes.length := by
  unfold readFrame readHeader at *
  cases hc : cutAt d.entry bytes with
  | none => simp [hc] at h
  | some p =>
    obtain ⟨line, rest⟩ := p
    have hlt := length_cutAt_lt hc
    simp only [hc, Option.map_some] at h ⊢
    split
    · exact hlt
    · split
      · simp; omega
      · next he hl => simp [he, hl] at h

/-- All that `read` yields before the stream ends, and the bytes of a frame begun. -/
def takeAll {α : Type} (read : Bytes → Received α × Bytes)
    (shrinks : ∀ bytes, (read bytes).1 ≠ .ended → (read bytes).2.length < bytes.length)
    (bytes : Bytes) : List (Except HeaderError α) × Bytes :=
  match h : read bytes with
  | (.ended, _) => ([], bytes)
  | (.frame a, rest) =>
    have : rest.length < bytes.length := by simpa [h] using shrinks bytes
    let (received, tail) := takeAll read shrinks rest
    (.ok a :: received, tail)
  | (.rejected e, rest) =>
    have : rest.length < bytes.length := by simpa [h] using shrinks bytes
    let (received, tail) := takeAll read shrinks rest
    (.error e :: received, tail)
termination_by bytes.length

def takeRequests (d : Delimiters) : Bytes → List (Except HeaderError Request) × Bytes :=
  takeAll (readRequest d) fun _ => length_readFrame_lt

def readRequests (d : Delimiters) (bytes : Bytes) : List (Except HeaderError Request) :=
  (takeRequests d bytes).1

def readResponses (d : Delimiters) (bytes : Bytes) : List (Except HeaderError Response) :=
  (takeAll (readResponse d) (fun _ => length_readFrame_lt) bytes).1

end CrawlCluster.Frame
