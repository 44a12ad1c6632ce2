import CrawlCluster.Store.Call

/-!
The job store kept in memory: the queue in serving order, the table of leases, the failed
attempts and the crawl id. Lease times only grow, whatever the clock shows; when there is no later
one left, the store breaks down.
-/

set_option autoImplicit false

namespace CrawlCluster

/-- A job in the queue with the number it entered under. -/
structure Queued where
  seq : Nat
  job : Job
  deriving DecidableEq, Repr

/-- By priority, then by order of entering. -/
def Queued.precedes (a b : Queued) : Bool :=
  a.job.priority < b.job.priority || (a.job.priority == b.job.priority && a.seq < b.seq)

structure Store where
  /-- In serving order. -/
  queue : List Queued := []
  /-- One row for each leased job, by length of the id, then by the id. -/
  current : List Job := []
  /-- In the order recorded. -/
  failed : List FailedJob := []
  crawlId : Int32 := 0
  nextSeq : Nat := 0
  lastLease : Int64 := 0
  /-- A lease was asked for when no time was left for one. Whoever asked was cut off, as is whoever
  asks for anything from then on: what the store would say or do has no meaning. -/
  exhausted : Bool := false
  deriving DecidableEq, Repr

/-- In what order the rows of the table of leases are come upon: as they happen to lie in memory,
which the calls that reached the store so far decide. Each lease is later than the one before, so no
table is come back to, and an order for each store is one for each time it is looked at. -/
class ScanOrder where
  scan : Store → List Job
  perm (s : Store) : (scan s).Perm s.current

instance ScanOrder.byId : ScanOrder := ⟨Store.current, fun s => .refl s.current⟩

namespace Store

def insertQueued (entry : Queued) : List Queued → List Queued
  | [] => [entry]
  | q :: queue => if entry.precedes q then entry :: q :: queue else q :: insertQueued entry queue

/-- Shorter ids first, ids of one length in their own order. -/
def idBefore (a b : String) : Bool :=
  a.utf8ByteSize < b.utf8ByteSize || (a.utf8ByteSize == b.utf8ByteSize && a < b)

/-- The table with the row of `job`, in place of an earlier row of the same id. -/
def putLease (job : Job) : List Job → List Job
  | [] => [job]
  | j :: table =>
    if j.id = job.id then job :: table
    else if idBefore job.id j.id then job :: j :: table
    else j :: putLease job table

def jobId (seq : Nat) : String := "job-" ++ seq.repr

/-- The priority a job is stored with: a new one gains on those that come after it. -/
def storedPriority (now : Int64) (entry : Enqueue) : Int64 :=
  if entry.isNew then Clock.nearest (now.toInt - entry.priority.toInt) else entry.priority

def enqueue (now : Int64) (entry : Enqueue) (s : Store) : Store :=
  let job : Job :=
    { id := jobId s.nextSeq, timeout := entry.timeout, priority := storedPriority now entry,
      url := entry.url, retries := entry.retries }
  { s with queue := insertQueued ⟨s.nextSeq, job⟩ s.queue, nextSeq := s.nextSeq + 1 }

def takeTop (s : Store) : Option (Job × Store) :=
  match s.queue with
  | [] => none
  | q :: queue => some (q.job, { s with queue })

def leased? (id : String) (s : Store) : Option Job := s.current.find? (·.id == id)

/-- The time of a lease granted now: later than that of any lease before. -/
def grantTime (now : Int64) (s : Store) : Int64 :=
  if now ≤ s.lastLease + 1 then s.lastLease + 1 else now

def grant (now : Int64) (job : Job) (s : Store) : Store :=
  let leaseTime := s.grantTime now
  { s with
    current := putLease { job with leaseTime } s.current, lastLease := leaseTime
    exhausted := s.exhausted || s.lastLease == Int64.maxValue }

def retire (id : String) (s : Store) : Store :=
  { s with current := s.current.filter (·.id != id) }

def recordFailure (failed : FailedJob) (s : Store) : Store :=
  { s with failed := s.failed ++ [failed] }

variable [ScanOrder]

def perform (now : Int64) : (call : StoreCall) → Store → Except StoreError call.Reply × Store
  | .connect _, s => (.ok (), s)
  | .enqueue entry, s => (.ok (), s.enqueue now entry)
  | .takeTop, s =>
    match s.takeTop with
    | some (job, s) => (.ok job, s)
    | none => (.error .notFound, s)
  | .leased id, s =>
    match s.leased? id with
    | some job => (.ok job, s)
    | none => (.error .notFound, s)
  | .grant job, s => (.ok (s.grantTime now), s.grant now job)
  | .leaseTime id, s => (.ok ((s.leased? id).map (·.leaseTime)), s)
  | .retire id, s => (.ok (), s.retire id)
  | .recordFailure failed, s => (.ok (), s.recordFailure failed)
  | .depth, s => (.ok s.queue.length, s)
  | .crawlId, s => (.ok s.crawlId, s)
  | .setCrawlId crawlId, s => (.ok (), { s with crawlId })
  | .leases, s => (.ok (ScanOrder.scan s), s)

def backend : Backend Store := ⟨perform⟩

end Store
end CrawlCluster
