import CrawlCluster.Network.World

set_option autoImplicit false

namespace CrawlCluster.Network

/-- A scripted peer takes the call; it keeps the connection unless it closes without a word. -/
def Fake.take (frame : Bytes) (fake : Fake) (w : World) : Reply × World :=
  let w := w.connect fake.name
  let (reply, peer) := fake.peer.serve w.delimiters frame
  let sockets := fake.sockets ++ [w.latest.socket]
  match reply with
  | .bytes sent => (.bytes sent false, w.putFake { fake with peer, sockets })
  | .stall => (.bytes [] false, w.putFake { fake with peer, sockets })
  | .close => (.bytes [] true, w.putFake { fake with peer })

variable [ScanOrder]

/-- What a host answers to bytes on a fresh connection that is dialled from the loopback. -/
def Host.take (link : Link World) (frame : Bytes) (host : Host) (w : World) : Bytes × World :=
  let w := w.connect host.name
  let host := w.load host
  let ip := if host.bound.ip.isUnspecified then Net.Ip.loopback else host.bound.ip
  let conn : Connection :=
    { remote := { ip := Net.Ip.loopback, port := 0 }, ownIp := ip, socket := w.latest.socket }
  let (sent, here) := Node.serve link (host.site w.now) conn frame ⟨host.node, w⟩
  (sent, here.net.save { host with node := here.node })

/-- Dial a peer and send it bytes, with `depth` calls left to pass on. -/
def exchange : (depth : Nat) → Peer → Bytes → World → Reply × World
  | 0, _, _, w => (.refused, w)
  | depth + 1, peer, frame, w =>
    match w.hosts.find? fun h => h.isRunning && h.isAt peer with
    | some host =>
      let (sent, w) := host.take ⟨exchange depth⟩ frame w
      (.bytes sent false, w)
    | none =>
      match w.fakes.find? fun f => reaches peer f.peer.listensAt with
      | some fake => fake.take frame w
      | none => (.refused, w)

def World.link (w : World) : Link World := ⟨exchange (w.hosts.length + 1)⟩

end CrawlCluster.Network
