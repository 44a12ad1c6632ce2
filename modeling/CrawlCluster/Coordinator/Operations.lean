import CrawlCluster.Coordinator.Program
import CrawlCluster.Retry

set_option autoImplicit false

namespace CrawlCluster.Coordinator

open Program (ask query fail holding orFail ofExcept perform)

structure Settings where
  delimiters : Delimiters := {}
  /-- With fewer jobs in the queue workers are sent crawling. -/
  minQueued : Nat := 500
  maxRetries : UInt32 := 3
  /-- How long a directive keeps another from being issued. -/
  cooldown : Clock.Span := Clock.Span.ofSeconds 150
  /-- Seconds, for new jobs that say nothing. -/
  defaultTimeout : Int64 := 3600
  retry : RetryPolicy := {}
  deriving DecidableEq, Repr

def uploaded : String := "Your job(s) has been successfully added to the queue."
def finished : String := "Job finished successfully."
def failed : String := "Job failed successfully."

def connect (db : Peer) : Program Unit := query (.connect db)

def loadCrawlId : Program Int32 := do
  let crawlId ← query .crawlId
  perform (.setCrawlId crawlId)
  return crawlId

def newEntry (s : Settings) (job : NewJob) : Enqueue :=
  { url := job.url, priority := job.priority, retries := 0,
    timeout := job.timeout.getD s.defaultTimeout, isNew := true }

/-- One after the other; the first that fails is named by its number. -/
def enqueueNew (s : Settings) : (index : Nat) → List NewJob → Program Unit
  | _, [] => pure ()
  | index, job :: jobs => do
    orFail (fun _ => .upload index) (← ask (.enqueue (newEntry s job)))
    enqueueNew s (index + 1) jobs

def acceptJobs (s : Settings) (jobs : List NewJob) : Program String :=
  if jobs.isEmpty then fail (.payload .argumentCount)
  else do
    enqueueNew s 0 jobs
    return uploaded

/-- Nothing is enqueued unless every line can be read. -/
def uploadJobs (s : Settings) (body : String) : Program String := do
  acceptJobs s (← ofExcept (NewJob.parseBatch s.delimiters (s.delimiters.entries body)))

/-- A job going back into the queue with the priority it had. -/
def returnEntry (job : Job) (retries : UInt32) : Enqueue :=
  { url := job.url, priority := job.priority, retries, timeout := job.timeout, isNew := false }

/-- Lease a job taken from the queue. One that cannot be leased is put back as it was. -/
def grant (job : Job) : Program Assignment := do
  match ← ask (.grant job) with
  | .ok leaseTime => return .spider job.id job.url leaseTime job.timeout
  | .error error =>
    let _ ← ask (.enqueue (returnEntry job job.retries))
    fail (.store error)

/-- Whether no new directive may be issued yet. -/
def isFresh (s : Settings) (now : Int64) (directive : Directive) : Bool :=
  Clock.nearest (now.toInt - directive.token.toInt) ≤ Clock.nearest s.cooldown.millis

/-- The token of a directive issued now, later than that of the one before. -/
def nextToken (now : Int64) : Option Directive → Int64
  | none => now
  | some previous => if now ≤ previous.token + 1 then previous.token + 1 else now

/-- No job to hand out: wait for the directive that is out, or issue one. -/
def direct (now : Int64) (outstanding fresh : Option Directive) : Program Assignment := do
  match fresh with
  | some directive => return .idle directive
  | none =>
    let directive := { crawlId := ← perform .crawlId, token := nextToken now outstanding }
    perform (.setOutstanding (some directive))
    return .crawl directive

/-- A queue that is low is drained only while somebody is crawling for more. -/
def takeJob (s : Settings) : Program Assignment := holding .crawl do
  let now ← perform .readClock
  let outstanding ← perform .outstanding
  let fresh := outstanding.filter (isFresh s now)
  let depth ← query .depth
  if s.minQueued ≤ depth || (fresh.isSome && 1 ≤ depth) then
    match ← ask .takeTop with
    | .ok job => grant job
    | .error .notFound => direct now outstanding fresh
    | .error error => fail (.store error)
  else direct now outstanding fresh

/-- The job behind a lease, if the lease is the one that counts. -/
def fenced (lease : Lease) : Program Job := do
  let current ← query (.leaseTime lease.jobId)
  if current = some lease.leaseTime then
    match ← ask (.leased lease.jobId) with
    | .ok job => return job
    | .error .notFound => fail .notExpected
    | .error error => fail (.store error)
  else fail .notExpected

/-- Renew a lease; it counts from now on under the time returned. -/
def renew (lease : Lease) : Program Int64 := holding .leases do
  let job ← fenced lease
  query (.grant job)

def renewLease (s : Settings) (body : String) : Program Int64 := do
  renew (← ofExcept (Lease.parse s.delimiters body))

/-- End a lease. A job that failed goes back into the queue before its lease is retired. -/
def acceptReport (s : Settings) (node : Peer) (client : String) (report : Report) :
    Program String := holding .leases do
  let job ← fenced report.lease
  perform (.record (.finished node client report.outcome))
  if report.outcome.isSuccess then
    query (.retire job.id)
    perform (.record (.project job.url))
    return finished
  else
    query (.recordFailure { job, outcome := report.outcome, detail := report.detail })
    if job.retries < s.maxRetries && report.outcome.isRetriable then
      query (.enqueue (returnEntry job (job.retries + 1)))
    query (.retire job.id)
    return failed

def reportJob (s : Settings) (node : Peer) (client body : String) : Program String := do
  acceptReport s node client (← ofExcept (Report.parse s.delimiters body))

/-- The directive is used up by a harvest that bears its token, whatever comes of it. -/
def consume (directive : Directive) : Program Unit := holding .crawl do
  let outstanding ← perform .outstanding
  if outstanding.map (·.token) = some directive.token then perform (.setOutstanding none)
  else fail .crawlDeprecated

def adoptCrawlId (crawlId : Int32) : Program Unit := do
  if crawlId ≠ (← perform .crawlId) then
    query (.setCrawlId crawlId)
    perform (.setCrawlId crawlId)

def acceptHarvest (s : Settings) (harvest : Harvest) : Program String := do
  consume harvest.directive
  adoptCrawlId harvest.directive.crawlId
  if !harvest.languages.isEmpty then perform (.record (.languages harvest.languages))
  enqueueNew s 0 harvest.jobs
  return uploaded

def uploadHarvest (s : Settings) (body : String) : Program String := do
  acceptHarvest s (← ofExcept (Harvest.parse s.delimiters body))

/-- Retire a lease found expired, unless it was renewed or retired since. -/
def reclaim (s : Settings) (job : Job) : Program Bool := holding .leases do
  let current ← query (.leaseTime job.id)
  if current = some job.leaseTime then
    query (.recordFailure { job, outcome := .timeout, detail := "" })
    query (.retire job.id)
    if job.retries < s.maxRetries then query (.enqueue (returnEntry job (job.retries + 1)))
    return true
  else return false

def reclaimEach (s : Settings) : List Job → (count : Nat) → Program Nat
  | [], count => pure count
  | job :: jobs, count => do
    let reclaimed ← reclaim s job
    reclaimEach s jobs (if reclaimed then count + 1 else count)

/-- Retire every lease that ran out before `now`; how many they were. -/
def sweep (s : Settings) (now : Int64) : Program Nat := do
  let jobs ← query .leases
  reclaimEach s (jobs.filter (·.isExpired now)) 0

end CrawlCluster.Coordinator
