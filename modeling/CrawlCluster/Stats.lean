import CrawlCluster.Frame.Message
import CrawlCluster.Job.Payload

/-!
What is recorded about the work done, and the counters kept of it. A number that has no room in its
word stops whoever records it, and the counters are of no use from then on.
-/

set_option autoImplicit false

namespace CrawlCluster

open CrawlCluster.Frame (RequestKind)

/-- Something worth recording; nothing a node does depends on it. -/
inductive Event where
  | request (node : Peer) (client : String) (kind : RequestKind)
  | finished (node : Peer) (client : String) (outcome : Outcome)
  | languages (sizes : List (String × UInt64))
  | project (url : String)
  deriving DecidableEq, Repr

/-- Numbers kept by key; a key without a number has zero. -/
abbrev Counter (κ : Type) := List (κ × UInt64)

namespace Counter

variable {κ : Type} [DecidableEq κ]

def get (key : κ) : Counter κ → UInt64
  | [] => 0
  | (k, n) :: counter => if k = key then n else get key counter

def put (key : κ) (n : UInt64) : Counter κ → Counter κ
  | [] => [(key, n)]
  | (k, m) :: counter => if k = key then (k, n) :: counter else (k, m) :: put key n counter

@[simp] theorem get_put (key other : κ) (n : UInt64) (counter : Counter κ) :
    (counter.put key n).get other = if other = key then n else counter.get other := by
  induction counter with
  | nil => simp [put, get, eq_comm]
  | cons entry counter ih =>
    obtain ⟨k, m⟩ := entry
    by_cases hk : k = key
    · subst hk
      by_cases ho : other = k
      · simp [put, get, ho]
      · simp [put, get, ho, Ne.symm ho]
    · by_cases ho : other = key
      · subst ho
        simp [put, get, hk, ih]
      · simp [put, get, hk, ih, ho]

/-- No counter is left by a sum that does not fit. -/
def add (key : κ) (amount : UInt64) (counter : Counter κ) : Option (Counter κ) :=
  if (counter.get key).toNat + amount.toNat < UInt64.size then
    some (counter.put key (counter.get key + amount))
  else none

def addAll (amounts : List (κ × UInt64)) (counter : Counter κ) : Option (Counter κ) :=
  amounts.foldlM (fun counter amount => counter.add amount.1 amount.2) counter

end Counter

structure Stats where
  requests : Counter (String × RequestKind) := []
  finished : Counter Int32 := []
  languageBytes : Counter String := []
  /-- The latest last. -/
  recent : List String := []
  deriving Repr

namespace Stats

def recentLimit : Nat := 100

def addProject (url : String) (recent : List String) : List String :=
  if recent.length = recentLimit then recent.tail ++ [url] else recent ++ [url]

/-- Nothing if the addition is one that stops the recorder: it holds the counters then, and whoever
wants to record or to look later on is stopped by that. -/
def record : Event → Stats → Option Stats
  | .request _ client kind, s =>
    (s.requests.add (client, kind) 1).map fun requests => { s with requests }
  | .finished _ _ outcome, s =>
    (s.finished.add outcome.id 1).map fun finished => { s with finished }
  | .languages sizes, s =>
    (s.languageBytes.addAll sizes).map fun languageBytes => { s with languageBytes }
  | .project url, s => some { s with recent := addProject url s.recent }

/-- The counters after all of the events, if none of them stopped the recorder. -/
def recordAll (events : List Event) (s : Stats) : Option Stats :=
  events.foldlM (fun s e => s.record e) s

def requestCount (client : String) (kind : RequestKind) (s : Stats) : UInt64 :=
  s.requests.get (client, kind)

def finishedCount (outcome : Outcome) (s : Stats) : UInt64 := s.finished.get outcome.id

def bytesOf (language : String) (s : Stats) : UInt64 := s.languageBytes.get language

/-- The latest first. -/
def recentProjects (s : Stats) : List String := s.recent.reverse

end Stats
end CrawlCluster
