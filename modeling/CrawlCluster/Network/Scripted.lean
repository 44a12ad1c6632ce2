import CrawlCluster.Net.Ip
import CrawlCluster.Roster.Joining

set_option autoImplicit false

namespace CrawlCluster.Network

inductive ScriptedReply where
  | bytes (bytes : Bytes)
  | close
  | stall
  deriving DecidableEq, Repr

structure ScriptedPeer where
  listensAt : Net.Endpoint
  replies : List ScriptedReply := []
  seen : List Frame.Request := []
  deriving Repr

def reaches (peer : Peer) (e : Net.Endpoint) : Bool :=
  peer.port == e.port && Net.Ip.ofText? peer.address == some e.ip

namespace ScriptedPeer

def serve (d : Delimiters) (bytes : Bytes) (p : ScriptedPeer) : ScriptedReply × ScriptedPeer :=
  let seen :=
    match (Frame.readRequest d bytes).1 with
    | .frame req => p.seen ++ [req]
    | _ => p.seen
  match p.replies with
  | [] => (.close, { p with seen })
  | reply :: replies => (reply, { p with seen, replies })

end ScriptedPeer

def ScriptedReply.toReply : ScriptedReply → Reply
  | .bytes sent => .bytes sent true
  | .close => .bytes [] true
  | .stall => .bytes [] false

/-- Nobody but the scripted peers listens anywhere. -/
def dial (d : Delimiters) (peer : Peer) (bytes : Bytes) :
    List ScriptedPeer → Reply × List ScriptedPeer
  | [] => (.refused, [])
  | p :: peers =>
    if reaches peer p.listensAt then
      let (reply, p) := p.serve d bytes
      (reply.toReply, p :: peers)
    else
      let (reply, peers) := dial d peer bytes peers
      (reply, p :: peers)

def scripted (d : Delimiters) : Link (List ScriptedPeer) := ⟨dial d⟩

end CrawlCluster.Network
