import CrawlCluster.Coordinator.Operations
import CrawlCluster.Net.Ip

set_option autoImplicit false

namespace CrawlCluster

open Clock (Span)

structure Parameters where
  bind : Net.Endpoint := { ip := Net.Ip.loopback, port := 0 }
  /-- The host other nodes reach this one at; without one, the address bound. -/
  advertise : Option String := none
  /-- Nodes to join through, in order. -/
  seeds : List Peer := []
  /-- Lead at once instead of joining anybody. -/
  assumeLeader : Bool := false
  /-- Where the job store is. -/
  db : Peer := { address := "cassandra", port := 8002 }
  heartbeatPeriod : Span := Span.ofSeconds 1
  /-- A leader not heard of for this long is given up. -/
  leaderTimeout : Span := Span.ofSeconds 10
  /-- How long a follower waits before it asks a successor. -/
  dropoutWait : Span := Span.ofSeconds 1
  joinTimeout : Span := Span.ofSeconds 5
  sweepPeriod : Span := Span.ofSeconds 10
  jobs : Coordinator.Settings := {}
  deriving DecidableEq, Repr

end CrawlCluster
