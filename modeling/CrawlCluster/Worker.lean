import CrawlCluster.Client

/-!
A worker: it takes what it is given, renews a lease once, and reports back. Whatever it leaves
to chance is drawn from a supply of choices; a request the leader turns down it lives with.
-/

set_option autoImplicit false

namespace CrawlCluster.Worker

open Client (Call Error)

structure Counts where
  finished : UInt64 := 0
  failed : UInt64 := 0
  crawled : UInt64 := 0
  idle : UInt64 := 0
  /-- Leases and directives the leader no longer took. -/
  stale : UInt64 := 0
  deriving DecidableEq, Repr

/-- What chance decides in one step. -/
structure Choice where
  fails : Bool := false
  /-- The reason then given: at least 2 and below 10. -/
  reason : Fin 8 := 0
  /-- A new job's number and its priority below 100, for each job of a crawl. -/
  jobs : List (UInt32 × Fin 100) := []
  /-- The size found of each language, below 100000. -/
  sizes : List (Fin 100000) := []
  deriving DecidableEq, Repr

def languageNames : List String := ["Rust", "C++", "Go", "Python"]

def projectUrl (n : UInt32) : String := "https://example.com/project/" ++ n.toNat.repr

def crawledJob (n : UInt32) (priority : Fin 100) : NewJob :=
  { url := projectUrl n, priority := Int64.ofNat priority, timeout := some 60 }

/-- `count` new jobs and a size for every language; what is not drawn is zero. -/
def harvestOf (count : Nat) (choice : Choice) (directive : Directive) : Harvest :=
  { directive
    languages := languageNames.mapIdx fun i name => (name, UInt64.ofNat (choice.sizes.getD i 0))
    jobs := (List.range count).map fun i =>
      let (n, priority) := choice.jobs.getD i (0, 0)
      crawledJob n priority }

def reportOf (choice : Choice) (lease : Lease) (url : String) : Report :=
  if choice.fails then
    { lease, outcome := .other (Int32.ofNat (choice.reason.val + 2)),
      detail := "synthetic failure processing " ++ url }
  else { lease, outcome := .success, detail := "" }

/-- The leader turned the request down; the worker can go on. -/
def isRejection : Error → Bool
  | .turnedDown .clientError _ => true
  | _ => false

structure Service (ν : Type) where
  answer : (call : Call) → ν → Except Error call.Value × ν

variable {ν : Type}

def stale (counts : Counts) : Counts := { counts with stale := counts.stale + 1 }

/-- What counts after a call: `done` if it went well, one more stale if it was turned down. -/
def settle {α : Type} (done counts : Counts) : Except Error α → Except Error Unit × Counts
  | .ok _ => (.ok (), done)
  | .error e => if isRejection e then (.ok (), stale counts) else (.error e, counts)

def process (service : Service ν) (choice : Choice) (lease : Lease) (url : String)
    (counts : Counts) (net : ν) : (Except Error Unit × Counts) × ν :=
  match service.answer (.renewLease lease) net with
  | (.error e, net) => (settle counts counts (.error e : Except Error Int64), net)
  | (.ok leaseTime, net) =>
    let report := reportOf choice { lease with leaseTime } url
    let (result, net) := service.answer (.reportJob report) net
    let done :=
      if report.outcome.isSuccess then { counts with finished := counts.finished + 1 }
      else { counts with failed := counts.failed + 1 }
    (settle done counts result, net)

def crawl (service : Service ν) (count : Nat) (choice : Choice) (directive : Directive)
    (counts : Counts) (net : ν) : (Except Error Unit × Counts) × ν :=
  let (result, net) := service.answer (.uploadHarvest (harvestOf count choice directive)) net
  (settle { counts with crawled := counts.crawled + 1 } counts result, net)

def step (service : Service ν) (count : Nat) (choice : Choice) (counts : Counts) (net : ν) :
    (Except Error Unit × Counts) × ν :=
  match service.answer .takeJob net with
  | (.error e, net) => ((.error e, counts), net)
  | (.ok (.spider jobId url leaseTime _), net) =>
    process service choice { jobId, leaseTime } url counts net
  | (.ok (.crawl directive), net) => crawl service count choice directive counts net
  | (.ok (.idle _), net) => ((.ok (), { counts with idle := counts.idle + 1 }), net)

/-- Steps until one fails or the choices run out. -/
def runSteps (service : Service ν) (count : Nat) :
    List Choice → Counts → ν → (Except Error Unit × Counts) × ν
  | [], counts, net => ((.ok (), counts), net)
  | choice :: choices, counts, net =>
    match step service count choice counts net with
    | ((.ok (), counts), net) => runSteps service count choices counts net
    | ((.error e, counts), net) => ((.error e, counts), net)

end CrawlCluster.Worker
