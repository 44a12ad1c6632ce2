import CrawlCluster.Clock

set_option autoImplicit false

namespace CrawlCluster

structure Job where
  id : String
  /-- When the lease was granted; presenting it back proves that the lease is held. -/
  leaseTime : Int64 := 0
  /-- Seconds the holder of a lease has. -/
  timeout : Int64 := 60
  /-- The smaller is served first. -/
  priority : Int64 := 0
  url : String
  /-- How often the job was put back after a failed attempt. -/
  retries : UInt32 := 0
  deriving DecidableEq, Repr

def Job.isExpired (job : Job) (now : Int64) : Bool :=
  Clock.nearest (job.leaseTime.toInt + (Clock.nearest (job.timeout.toInt * 1000)).toInt) < now

inductive Outcome where
  | success
  | timeout
  /-- The project behind the url is known already. -/
  | projectKnown
  | unparsable
  | other (id : Int32)
  deriving DecidableEq, Repr

namespace Outcome

def id : Outcome → Int32
  | .success => 0
  | .timeout => 1
  | .projectKnown => 10
  | .unparsable => 11
  | .other id => id

def ofId (id : Int32) : Outcome :=
  if id = 0 then .success
  else if id = 1 then .timeout
  else if id = 10 then .projectKnown
  else if id = 11 then .unparsable
  else .other id

def isSuccess : Outcome → Bool
  | .success => true
  | _ => false

def isRetriable : Outcome → Bool
  | .success | .projectKnown | .unparsable => false
  | _ => true

@[simp] theorem id_ofId (id : Int32) : (ofId id).id = id := by
  unfold ofId
  split
  · next h => simp [h, Outcome.id]
  · split
    · next h => simp [h, Outcome.id]
    · split
      · next h => simp [h, Outcome.id]
      · split
        · next h => simp [h, Outcome.id]
        · rfl

end Outcome

structure FailedJob where
  job : Job
  outcome : Outcome
  detail : String
  deriving DecidableEq, Repr

end CrawlCluster
