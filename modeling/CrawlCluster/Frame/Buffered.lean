import CrawlCluster.Frame.Stream

/-!
Reading frames off a stream that arrives in chunks. Of a header line no more than the limit is
kept; the rest of a longer one is dropped as it comes.
-/

set_option autoImplicit false

namespace CrawlCluster.Frame

structure Partial where
  line : Bytes := []
  tooLong : Bool := false
  deriving DecidableEq, Repr

namespace Partial

/-- With more of the line; past the limit it is given up for good. -/
def extend (part : Bytes) (p : Partial) : Partial :=
  if p.tooLong then p
  else if maxHeaderLength < (p.line ++ part).length then { tooLong := true }
  else { line := p.line ++ part }

def finish (p : Partial) : Except HeaderError String :=
  if p.tooLong then .error .tooLong else decodeHeader p.line

end Partial

def collectHeader (d : Delimiters) :
    Partial → List Bytes → Option (Except HeaderError String × List Bytes)
  | _, [] => none
  | p, chunk :: chunks =>
    match cutAt d.entry chunk with
    | some (part, rest) => some ((p.extend part).finish, rest :: chunks)
    | none => collectHeader d (p.extend chunk) chunks

def collectPayload (n : Nat) : List Bytes → Option (Bytes × List Bytes)
  | [] => if n = 0 then some ([], []) else none
  | chunk :: chunks =>
    if n ≤ chunk.length then some (chunk.take n, chunk.drop n :: chunks)
    else
      (collectPayload (n - chunk.length) chunks).map fun (rest, chunks) => (chunk ++ rest, chunks)

def readChunked {η α : Type} (d : Delimiters) (parse : String → Except HeaderError η)
    (length : η → Nat) (make : η → Bytes → α) (chunks : List Bytes) :
    Received α × List Bytes :=
  match collectHeader d {} chunks with
  | none => (.ended, [])
  | some (line, chunks) =>
    match line.bind parse with
    | .error e => (.rejected e, chunks)
    | .ok header =>
      match collectPayload (length header) chunks with
      | some (payload, chunks) => (.frame (make header payload), chunks)
      | none => (.ended, [])

end CrawlCluster.Frame
