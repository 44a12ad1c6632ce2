import CrawlCluster.Coordinator.Desk
import CrawlCluster.Network.Scripted
import CrawlCluster.Node.Life
import CrawlCluster.Node.Serve

/-!
A network of whole nodes, scripted peers and bare sockets. A connection is a socket with an end
on the side that was dialled; it lives while both of its ends hold on to it.
-/

set_option autoImplicit false

namespace CrawlCluster.Network

open Roster (Socket)

inductive Condition where
  | running
  | stopped
  /-- It found no successor and gave up. -/
  | failed
  deriving DecidableEq, Repr

/-- The connection a follower hears its leader on. -/
structure Ear where
  socket : Socket
  leader : String
  /-- A frame not complete yet. -/
  tail : Bytes := []
  deriving DecidableEq, Repr

structure Host where
  name : String
  bound : Net.Endpoint
  parameters : Parameters
  node : Node FaultyStore
  /-- The name of the store it shares. -/
  store : String
  condition : Condition := .running
  ear : Option Ear := none
  search : Option Roster.Search := none
  deriving Repr

/-- A scripted peer that keeps its connections open after it has answered. -/
structure Fake where
  name : String
  peer : ScriptedPeer
  /-- Open connections, the latest last. -/
  sockets : List Socket := []
  deriving Repr

structure Guest where
  name : String
  socket : Socket
  /-- Heartbeats with changes that came in. -/
  inbox : List Frame.Request := []
  deriving Repr

structure World where
  clock : Int := 0
  /-- How the scripted ends write. -/
  delimiters : Delimiters := {}
  stores : List (String × Store) := []
  hosts : List Host := []
  fakes : List Fake := []
  guests : List Guest := []
  /-- Connections made so far. -/
  dialled : Nat := 0
  /-- The latest connection and who was dialled. -/
  latest : Ear := { socket := ⟨""⟩, leader := "" }
  deriving Repr

namespace Host

variable [ScanOrder]

def site (now : Int64) (host : Host) : Coordinator.Site FaultyStore :=
  host.node.settings.site now

def isRunning (host : Host) : Bool := host.condition == .running

def withDesk (desk : Coordinator.Desk) (host : Host) : Host :=
  { host with node := { host.node with desk } }

def withStore (store : Store) (host : Host) : Host :=
  host.withDesk (host.node.desk.withRows store)

/-- Whether dialling `peer` leads to this host; a wildcard address is reached at the loopback. -/
def isAt (peer : Peer) (host : Host) : Bool :=
  let ip := if host.bound.ip.isUnspecified then Net.Ip.loopback else host.bound.ip
  reaches peer { host.bound with ip }

end Host

namespace World

def now (w : World) : Int64 := Clock.reading w.clock

def store (name : String) (w : World) : Store := (w.stores.lookup name).getD {}

def putStore (name : String) (store : Store) (w : World) : World :=
  { w with stores := (name, store) :: w.stores.filter (·.1 != name) }

def host? (name : String) (w : World) : Option Host := w.hosts.find? (·.name == name)

def putHost (host : Host) (w : World) : World :=
  { w with hosts := w.hosts.map fun h => if h.name = host.name then host else h }

def load (host : Host) (w : World) : Host := host.withStore (w.store host.store)

/-- Only a leader has touched the store. -/
def save (host : Host) (w : World) : World :=
  let w := w.putHost host
  if host.node.members.isLeader then w.putStore host.store host.node.desk.rows else w

def putFake (fake : Fake) (w : World) : World :=
  { w with fakes := w.fakes.map fun f => if f.name = fake.name then fake else f }

def putGuest (guest : Guest) (w : World) : World :=
  { w with guests := w.guests.map fun g => if g.name = guest.name then guest else g }

def connect (name : String) (w : World) : World :=
  { w with dialled := w.dialled + 1, latest := { socket := ⟨w.dialled.repr⟩, leader := name } }

/-- Whether the side that was dialled still holds its end. -/
def holds (ear : Ear) (w : World) : Bool :=
  (w.hosts.any fun h => h.name == ear.leader && h.isRunning) ||
    w.fakes.any fun f => f.name == ear.leader && f.sockets.contains ear.socket

end World
end CrawlCluster.Network
