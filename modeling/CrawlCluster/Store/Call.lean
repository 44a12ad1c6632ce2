import CrawlCluster.Job.Basic
import CrawlCluster.Peer

set_option autoImplicit false

namespace CrawlCluster

inductive StoreError where
  /-- There is no such row; asking again does not help. -/
  | notFound
  | transient (text : String)
  | unreachable (text : String)
  deriving DecidableEq, Repr

def StoreError.message : StoreError → String
  | .notFound => "not found"
  | .transient text => "transient store failure: " ++ text
  | .unreachable text => "store unreachable: " ++ text

structure Enqueue where
  url : String
  priority : Int64
  retries : UInt32
  timeout : Int64
  /-- A new job's priority is the larger the sooner, and gains with age; one that comes back
  keeps the priority it was stored with. -/
  isNew : Bool
  deriving DecidableEq, Repr

inductive StoreCall where
  | connect (db : Peer)
  | enqueue (entry : Enqueue)
  | takeTop
  | leased (id : String)
  | grant (job : Job)
  | leaseTime (id : String)
  | retire (id : String)
  | recordFailure (failed : FailedJob)
  | depth
  | crawlId
  | setCrawlId (crawlId : Int32)
  | leases
  deriving DecidableEq, Repr

namespace StoreCall

/-- The kind of answer a call gets. -/
abbrev Reply : StoreCall → Type
  | .connect _ | .enqueue _ | .retire _ | .recordFailure _ | .setCrawlId _ => Unit
  | .takeTop | .leased _ => Job
  | .grant _ => Int64
  | .leaseTime _ => Option Int64
  | .depth => Nat
  | .crawlId => Int32
  | .leases => List Job

inductive Kind where
  | connect
  | enqueue
  | takeTop
  | leased
  | grant
  | leaseTime
  | retire
  | recordFailure
  | depth
  | crawlId
  | setCrawlId
  | leases
  deriving DecidableEq, Repr

def kind : StoreCall → Kind
  | .connect _ => .connect
  | .enqueue _ => .enqueue
  | .takeTop => .takeTop
  | .leased _ => .leased
  | .grant _ => .grant
  | .leaseTime _ => .leaseTime
  | .retire _ => .retire
  | .recordFailure _ => .recordFailure
  | .depth => .depth
  | .crawlId => .crawlId
  | .setCrawlId _ => .setCrawlId
  | .leases => .leases

end StoreCall

/-- Something that answers store calls at a clock reading, from a state of its own. -/
structure Backend (σ : Type) where
  perform : Int64 → (call : StoreCall) → σ → Except StoreError call.Reply × σ

end CrawlCluster
