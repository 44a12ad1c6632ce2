import CrawlCluster.Worker

set_option autoImplicit false

namespace CrawlCluster.Worker

open Client (Call Error)

variable {ν : Type}

/-- What a step comes to that is not turned down. -/
inductive Turn where
  /-- A lease was taken, renewed once, and reported on under its new time. -/
  | job (lease : Lease) (url : String) (timeout leaseTime : Int64) (report : Report)
  | crawl (harvest : Harvest)
  | idle (directive : Directive)
  deriving DecidableEq, Repr

namespace Turn

def told : Turn → List ((call : Call) × Except Error call.Value)
  | .job lease url timeout leaseTime report =>
    [⟨.takeJob, .ok (.spider lease.jobId url lease.leaseTime timeout)⟩,
      ⟨.renewLease lease, .ok leaseTime⟩, ⟨.reportJob report, .ok ()⟩]
  | .crawl harvest =>
    [⟨.takeJob, .ok (.crawl harvest.directive)⟩, ⟨.uploadHarvest harvest, .ok ()⟩]
  | .idle directive => [⟨.takeJob, .ok (.idle directive)⟩]

/-- What the worker wrote is what chance made it write. -/
def Follows (count : Nat) (choice : Choice) : Turn → Prop
  | .job lease url _ leaseTime report => report = reportOf choice { lease with leaseTime } url
  | .crawl harvest => harvest = harvestOf count choice harvest.directive
  | .idle _ => True

def finishes : Turn → Bool
  | .job _ _ _ _ report => report.outcome.isSuccess
  | .crawl _ | .idle _ => false

def fails : Turn → Bool
  | .job _ _ _ _ report => !report.outcome.isSuccess
  | .crawl _ | .idle _ => false

def crawls : Turn → Bool
  | .crawl _ => true
  | .job .. | .idle _ => false

def idles : Turn → Bool
  | .idle _ => true
  | .job .. | .crawl _ => false

def counted (counts : Counts) : Turn → Counts
  | .job _ _ _ _ report =>
    if report.outcome.isSuccess then { counts with finished := counts.finished + 1 }
    else { counts with failed := counts.failed + 1 }
  | .crawl _ => { counts with crawled := counts.crawled + 1 }
  | .idle _ => { counts with idle := counts.idle + 1 }

/-- Each turn is counted once, in the one place that is for its like. -/
theorem foldl_counted (turns : List Turn) (counts : Counts) :
    turns.foldl counted counts =
      { finished := counts.finished + .ofNat (turns.countP finishes)
        failed := counts.failed + .ofNat (turns.countP fails)
        crawled := counts.crawled + .ofNat (turns.countP crawls)
        idle := counts.idle + .ofNat (turns.countP idles)
        stale := counts.stale } := by
  induction turns generalizing counts with
  | nil => simp
  | cons turn turns ih =>
    have hone (n : UInt64) (m : Nat) : n + 1 + .ofNat m = n + .ofNat (m + 1) := by
      rw [UInt64.ofNat_add, UInt64.add_assoc, UInt64.add_comm 1]
      rfl
    rw [List.foldl_cons, ih]
    cases turn with
    | job lease url timeout leaseTime report =>
      cases hsuccess : report.outcome.isSuccess <;>
        simp [counted, finishes, fails, crawls, idles, hsuccess, hone]
    | crawl harvest => simp [counted, List.countP_cons, finishes, fails, crawls, idles, hone]
    | idle directive => simp [counted, List.countP_cons, finishes, fails, crawls, idles, hone]

theorem countP_add (turns : List Turn) :
    turns.countP finishes + turns.countP fails + turns.countP crawls + turns.countP idles =
      turns.length := by
  induction turns with
  | nil => rfl
  | cons turn turns ih =>
    cases turn with
    | job lease url timeout leaseTime report =>
      cases hsuccess : report.outcome.isSuccess <;>
        simp [finishes, fails, crawls, idles, hsuccess] <;> omega
    | crawl harvest =>
      simp [List.countP_cons, finishes, fails, crawls, idles]
      omega
    | idle directive =>
      simp [List.countP_cons, finishes, fails, crawls, idles]
      omega

end Turn

/-- A step in which every call goes well, between what was before it and what is after it. -/
inductive Goes (service : Service ν) (count : Nat) (choice : Choice) (net : ν) : Turn → ν → Prop
  | job {jobId url : String} {granted timeout leaseTime : Int64} {net₁ net₂ last : ν}
    (htaken : service.answer .takeJob net = (.ok (.spider jobId url granted timeout), net₁))
    (hrenewed : service.answer (.renewLease ⟨jobId, granted⟩) net₁ = (.ok leaseTime, net₂))
    (hreported : service.answer (.reportJob (reportOf choice ⟨jobId, leaseTime⟩ url)) net₂ =
      (.ok (), last)) :
    Goes service count choice net (.job ⟨jobId, granted⟩ url timeout leaseTime
      (reportOf choice ⟨jobId, leaseTime⟩ url)) last
  | crawl {directive : Directive} {net₁ last : ν}
    (htaken : service.answer .takeJob net = (.ok (.crawl directive), net₁))
    (hbrought : service.answer (.uploadHarvest (harvestOf count choice directive)) net₁ =
      (.ok (), last)) :
    Goes service count choice net (.crawl (harvestOf count choice directive)) last
  | idle {directive : Directive} {last : ν}
    (htaken : service.answer .takeJob net = (.ok (.idle directive), last)) :
    Goes service count choice net (.idle directive) last

namespace Goes

variable {service : Service ν} {count : Nat} {choice : Choice} {net last : ν} {turn : Turn}

theorem follows (h : Goes service count choice net turn last) : turn.Follows count choice := by
  cases h with
  | job => exact rfl
  | crawl => exact rfl
  | idle => trivial

theorem step (h : Goes service count choice net turn last) (counts : Counts) :
    Worker.step service count choice counts net = ((.ok (), turn.counted counts), last) := by
  cases h with
  | job htaken hrenewed hreported =>
    simp only [Worker.step, htaken, process, hrenewed, hreported, settle, Turn.counted]
  | crawl htaken hbrought =>
    simp only [Worker.step, htaken, Worker.crawl, hbrought, settle, Turn.counted]
  | idle htaken => simp only [Worker.step, htaken, Turn.counted]

end Goes

end CrawlCluster.Worker
