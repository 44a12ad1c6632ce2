import CrawlCluster.Network.Exchange

/-!
What the nodes of a network do of their own accord until nothing is left to do: leaders send
heartbeats and sweep leases, followers hear them and replace a leader that is gone.
-/

set_option autoImplicit false

namespace CrawlCluster.Network

/-- Bytes from the leader: whole frames are heard, the rest is kept. -/
def Host.receive (bytes : Bytes) (host : Host) : Host :=
  match host.ear with
  | none => host
  | some ear =>
    let d := host.node.delimiters
    let (received, tail) := Frame.takeRequests d (ear.tail ++ bytes)
    { host with node := received.foldl Node.hear host.node, ear := some { ear with tail } }

/-- A follower from now on, hearing what was dialled last. -/
def Host.follow (joined : Roster.Joined) (ear : Ear) (host : Host) : Host :=
  { host with node := host.node.follow joined, ear := some ear, search := none }.receive joined.rest

/-- One heartbeat frame on its way; whether anybody still holds the socket. -/
def deliver (d : Delimiters) (req : Frame.Request) (tells : Bool) (socket : Roster.Socket)
    (w : World) : Bool × World :=
  let hears (h : Host) := h.isRunning && (h.ear.map (·.socket)) == some socket
  match w.hosts.find? hears with
  | some host => (true, w.putHost (host.receive (req.encode d)))
  | none =>
    match w.guests.find? fun g => g.socket == socket with
    | some guest =>
      let inbox := if tells then guest.inbox ++ [req] else guest.inbox
      (true, w.putGuest { guest with inbox })
    | none => (false, w)

/-- One heartbeat of a leader; followers nobody is behind any more are dropped. -/
def beat (leader : Host) (w : World) : World :=
  let tells := !leader.node.members.pending.isEmpty
  let (req, node) := leader.node.heartbeat
  let sockets := leader.node.members.active.map (·.socket)
  let (lost, w) := sockets.foldl (fun (lost, w) socket =>
    let (held, w) := deliver node.delimiters req tells socket w
    (if held then lost else lost ++ [socket], w)) (([] : List Roster.Socket), w)
  let members := lost.foldl (fun members socket => members.removeActive socket) node.members
  w.putHost { leader with node := { node with members } }

variable [ScanOrder]

def sweep (leader : Host) (w : World) : World :=
  let host := w.load leader
  let site := host.site w.now
  let (_, node) := host.node.run site (Coordinator.sweep host.node.settings w.now)
  w.save { host with node }

def noticeLoss (host : Host) (w : World) : World :=
  match host.ear with
  | some ear =>
    if w.holds ear then w
    else
      let search := { candidates := host.node.members.view }
      w.putHost { host with node := host.node.seek, ear := none, search := some search }
  | none => w

/-- One move of a node that looks for a successor. -/
def advance (host : Host) (search : Roster.Search) (w : World) : World :=
  let me := host.node.members.me
  match search.move me with
  | .takeOver =>
    let host := w.load host
    w.save { host with node := host.node.lead (host.site w.now), search := none }
  | .giveUp => w.putHost { host with condition := .failed, search := none }
  | .ask candidate =>
    match Roster.join w.link host.node.delimiters me candidate w with
    | (.ok joined, w) => w.putHost (host.follow joined w.latest)
    | (.error _, w) => w.putHost { host with search := some search.afterFailure }

def eachHost (p : Host → Bool) (act : Host → World → World) (w : World) : World :=
  (w.hosts.map (·.name)).foldl (fun w name =>
    match w.host? name with
    | some host => if host.isRunning && p host then act host w else w
    | none => w) w

def takesOver (host : Host) : Bool :=
  host.search.any fun search => search.move host.node.members.me == .takeOver

def moveOn (host : Host) (w : World) : World :=
  match host.search with
  | some search => advance host search w
  | none => w

/-- One round: those first in line take over before the others ask. -/
def round (w : World) : World :=
  let leads (h : Host) := h.node.members.isLeader
  let w := eachHost leads beat w
  let w := eachHost leads sweep w
  let w := eachHost (fun _ => true) noticeLoss w
  let w := eachHost takesOver moveOn w
  eachHost (·.search.isSome) moveOn w

def rounds : Nat → World → World
  | 0, w => w
  | n + 1, w => rounds n (round w)

/-- Enough rounds for every search to end, one after the other, and for the news to spread. -/
def World.settle (w : World) : World :=
  let searches := w.hosts.map fun h =>
    (Roster.attemptsEach + 1) * (h.node.members.view.length + 1)
  rounds (searches.foldl (· + ·) 4) w

end CrawlCluster.Network
