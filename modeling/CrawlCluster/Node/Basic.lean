import CrawlCluster.Coordinator.Run
import CrawlCluster.Roster.Identity
import CrawlCluster.Roster.Joining

set_option autoImplicit false

namespace CrawlCluster

structure Node (σ : Type) where
  settings : Coordinator.Settings := {}
  members : Roster.State := {}
  desk : Coordinator.State σ
  deriving Repr

structure Connection where
  remote : Net.Endpoint
  ownIp : Net.Ip := Net.Ip.loopback
  socket : Roster.Socket
  deriving DecidableEq, Repr

namespace Node

open Coordinator (Program Site)

variable {σ α : Type}

def delimiters (node : Node σ) : Delimiters := node.settings.delimiters

def run (site : Site σ) (program : Program α) (node : Node σ) : Except JobError α × Node σ :=
  let (result, desk) := program.run site node.desk
  (result, { node with desk })

def record (event : Event) (node : Node σ) : Node σ :=
  { node with desk := { node.desk with events := node.desk.events ++ [event] } }

/-- The members in text, this node's own address filled in where it is not known. -/
def peerList (ownIp : Net.Ip) (node : Node σ) : String :=
  let known (p : Peer) := if p.address.isEmpty then { p with address := ownIp.text } else p
  node.delimiters.closeEntries
    (node.members.currentPeers.map fun p => (known p).encode node.delimiters)

/-- Take a joiner in, or send it where it belongs. -/
def takeIn (conn : Connection) (body : Bytes) (node : Node σ) : Frame.Response × Node σ :=
  let d := node.delimiters
  match Roster.joinerIdentity d body conn.remote with
  | none => (.clientError "Incorrect amount of arguments.", node)
  | some peer =>
    match node.members.role with
    | .leader =>
      let (others, members) := node.members.takeIn peer conn.socket
      (.success ((Roster.JoinAnswer.accepted peer others).encode d), { node with members })
    | .follower leader => (.success ((Roster.JoinAnswer.redirect leader).encode d), node)
    | .unstarted | .attemptingJoin => (.serverError "Not ready to accept peers.", node)

/-- The operation behind a job request, with its result as text. -/
def jobProgram? (node : Node σ) (client body : String) :
    Frame.RequestKind → Option (Program String)
  | .uploadJobs => some (Coordinator.uploadJobs node.settings body)
  | .uploadHarvest => some (Coordinator.uploadHarvest node.settings body)
  | .takeJob => some do
    return (← Coordinator.takeJob node.settings).encode node.delimiters
  | .renewLease => some do
    return (← Coordinator.renewLease node.settings body).toInt.repr
  | .reportJob => some (Coordinator.reportJob node.settings node.members.me client body)
  | .join | .listPeers | .heartbeat => none

def jobResponse : Except JobError String → Frame.Response
  | .ok message => .success message
  | .error error => error.response

def handle (site : Site σ) (conn : Connection) (kind : Frame.RequestKind) (req : Frame.Request)
    (node : Node σ) : Frame.Response × Node σ :=
  let node := node.record (.request node.members.me req.client kind)
  match kind with
  | .join => node.takeIn conn req.body
  | .heartbeat => (.clientError "Heartbeat not expected.", node)
  | .listPeers => (.success (node.peerList conn.ownIp), node)
  | kind =>
    match Text.decode? req.body with
    | none => (.clientError "Payload is not valid utf-8.", node)
    | some body =>
      match node.jobProgram? req.client body kind with
      | none => (.clientError "Unknown request type.", node)
      | some program =>
        let (result, node) := node.run site program
        (jobResponse result, node)

end Node
end CrawlCluster
