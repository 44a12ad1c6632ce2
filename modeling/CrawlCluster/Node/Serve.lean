import CrawlCluster.Node.Basic

/-!
Serving a connection: one answer for each frame and each header that cannot be used, in order.
What only the leader may act on is passed on to it over a fresh connection and its answer
relayed; the node itself is left alone.
-/

set_option autoImplicit false

namespace CrawlCluster.Node

open Coordinator (Site)

variable {σ ν : Type}

def forward (link : Link ν) (d : Delimiters) (role : Roster.Role) (req : Frame.Request)
    (net : ν) : Frame.Response × ν :=
  match role with
  | .follower leader =>
    let (reply, net) := link.exchange leader (req.encode d) net
    match Roster.readReply d reply with
    | .ok (response, _) => (response, net)
    | .error _ => (.serverError "Unable to reach the leader.", net)
  | _ => (.serverError "No leader known.", net)

structure Placed (σ ν : Type) where
  node : Node σ
  net : ν

def dispatch (link : Link ν) (site : Site σ) (conn : Connection) (req : Frame.Request)
    (here : Placed σ ν) : Frame.Response × Placed σ ν :=
  match Frame.RequestKind.ofCode? req.code with
  | none => (.clientError "Unknown request type.", here)
  | some kind =>
    if kind.leaderOnly && !here.node.members.isLeader then
      let (response, net) := forward link here.node.delimiters here.node.members.role req here.net
      (response, { here with net })
    else
      let (response, node) := here.node.handle site conn kind req
      (response, { here with node })

def respond (link : Link ν) (site : Site σ) (conn : Connection) (here : Placed σ ν) :
    Except Frame.HeaderError Frame.Request → Frame.Response × Placed σ ν
  | .error error => (.clientError error.message, here)
  | .ok req => dispatch link site conn req here

def respondAll (link : Link ν) (site : Site σ) (conn : Connection) :
    List (Except Frame.HeaderError Frame.Request) → Placed σ ν →
      List Frame.Response × Placed σ ν
  | [], here => ([], here)
  | received :: rest, here =>
    let (response, here) := respond link site conn here received
    let (responses, here) := respondAll link site conn rest here
    (response :: responses, here)

def serve (link : Link ν) (site : Site σ) (conn : Connection) (bytes : Bytes)
    (here : Placed σ ν) : Bytes × Placed σ ν :=
  let d := here.node.delimiters
  let (responses, here) := respondAll link site conn (Frame.readRequests d bytes) here
  (responses.flatMap (·.encode d), here)

end CrawlCluster.Node
