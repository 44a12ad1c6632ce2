import CrawlCluster.Coordinator.Desk
import CrawlCluster.Network.Scripted
import CrawlCluster.Node.Serve

set_option autoImplicit false

namespace CrawlCluster.Network

open Coordinator (Desk)

structure Session where
  clock : Int := 0
  node : Node FaultyStore
  peers : List ScriptedPeer := []
  /-- Connections served so far. -/
  served : Nat := 0
  stopped : Bool := false
  deriving Repr

namespace Session

variable [ScanOrder]

def now (s : Session) : Int64 := Clock.reading s.clock

def site (s : Session) : Coordinator.Site FaultyStore := s.node.settings.site s.now

def withDesk (desk : Desk) (s : Session) : Session := { s with node := { s.node with desk } }

/-- What a connection that sends these bytes is answered; nothing once the node has stopped. -/
def send (remote : Net.Endpoint) (bytes : Bytes) (s : Session) : Bytes × Session :=
  if s.stopped then ([], s)
  else
    let conn : Connection := { remote, socket := ⟨s.served.repr⟩ }
    let link := scripted s.node.delimiters
    let (sent, here) := Node.serve link s.site conn bytes ⟨s.node, s.peers⟩
    (sent, { s with node := here.node, peers := here.net, served := s.served + 1 })

def reclaim (now : Int64) (s : Session) : Except JobError Nat × Session :=
  let (result, node) := s.node.run s.site (Coordinator.sweep s.node.settings now)
  (result, { s with node })

/-- The session with everything recorded taken note of. -/
def clearLogs (s : Session) : Session :=
  { s.withDesk s.node.desk.clearLogs with peers := s.peers.map fun p => { p with seen := [] } }

end Session
end CrawlCluster.Network
