import CrawlCluster.Roster.Succession
import CrawlCluster.Node.Basic
import CrawlCluster.Parameters

/-!
The life of a node besides its requests: it starts by joining or leading, tells its followers
what changed, hears its leader, and looks for a successor when the leader is lost.
-/

set_option autoImplicit false

namespace CrawlCluster.Node

open Coordinator (Site)
open Roster (Heartbeat Joined)

variable {σ ν : Type}

/-- Lead from now on, with the crawl id of the store if it can be had. -/
def lead (site : Site σ) (node : Node σ) : Node σ :=
  let (_, node) := node.run site Coordinator.loadCrawlId
  { node with members := node.members.lead }

def follow (joined : Joined) (node : Node σ) : Node σ :=
  { node with members := node.members.follow joined.leader joined.you joined.members }

def seek (node : Node σ) : Node σ :=
  { node with members := { node.members with role := .attemptingJoin } }

/-- Name itself, then join through the first seed that leads to a leader, or else lead. -/
def start (link : Link ν) (site : Site σ) (p : Parameters) (bound : Net.Endpoint) (node : Node σ)
    (net : ν) : Option Joined × Node σ × ν :=
  let me := Roster.initialIdentity p.advertise bound
  let node := { node with members := { node.members with me, role := .attemptingJoin } }
  if p.assumeLeader || p.seeds.isEmpty then (none, node.lead site, net)
  else
    let others := p.seeds.filter fun seed => !Roster.isSelf seed me bound
    match Roster.joinFirst link node.delimiters me others net with
    | (some joined, net) => (some joined, node.follow joined, net)
    | (none, net) => (none, node.lead site, net)

def heartbeat (node : Node σ) : Frame.Request × Node σ :=
  let (changes, members) := node.members.takePending
  let beat : Heartbeat := { crawlId := node.desk.crawlId, changes }
  (⟨Frame.RequestKind.heartbeat.code, node.members.me.label,
      Text.encode (beat.encode node.delimiters)⟩, { node with members })

/-- The heartbeat in a frame, if it is one and can be read. -/
def readHeartbeat? (d : Delimiters) (req : Frame.Request) : Option Heartbeat :=
  if req.code = Frame.RequestKind.heartbeat.code then
    (Text.decode? req.body).bind fun body => (Heartbeat.parse d body).toOption
  else none

def applyHeartbeat (beat : Heartbeat) (node : Node σ) : Node σ :=
  { node with
    desk := { node.desk with crawlId := beat.crawlId }
    members := node.members.applyAll beat.changes }

def hear (node : Node σ) : Except Frame.HeaderError Frame.Request → Node σ
  | .error _ => node
  | .ok req =>
    match readHeartbeat? node.delimiters req with
    | none => node
    | some beat => node.applyHeartbeat beat

def listen (bytes : Bytes) (node : Node σ) : Node σ :=
  (Frame.readRequests node.delimiters bytes).foldl hear node

end CrawlCluster.Node
