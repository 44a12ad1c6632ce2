import CrawlCluster.Network.Settle

set_option autoImplicit false

namespace CrawlCluster.Network

inductive StartError where
  | addressInUse
  | store (error : JobError)
  deriving DecidableEq, Repr

def StartError.message : StartError → String
  | .addressInUse => "io error: Address already in use (os error 98)"
  | .store error => "job store error: " ++ error.message

/-- Whether two endpoints cannot both be listened at. -/
def collide (a b : Net.Endpoint) : Bool :=
  a.port == b.port && (a.ip == b.ip || a.ip.isUnspecified || b.ip.isUnspecified)

namespace World

variable [ScanOrder]

def isTaken (e : Net.Endpoint) (w : World) : Bool :=
  (w.hosts.any fun h => h.isRunning && collide h.bound e) ||
    w.fakes.any fun f => collide f.peer.listensAt e

def start (name store : String) (p : Parameters) (faults : List Fault) (w : World) :
    Except StartError Unit × World :=
  if w.isTaken p.bind then (.error .addressInUse, w)
  else
    let desk := { store := { store := w.store store, faults } }
    let node : Node FaultyStore := { settings := p.jobs, desk }
    let host : Host := { name, bound := p.bind, parameters := p, node, store }
    let site := host.site w.now
    match node.run site (Coordinator.connect p.db) with
    | (.error e, _) => (.error (.store e), w)
    | (.ok (), node) =>
      let host := { host with node := node.seek }
      let others := w.hosts.filter fun h => h.name != name
      let w := { w with hosts := others ++ [host] }
      match host.node.start w.link site p p.bind w with
      | (some joined, node, w) =>
        (.ok (), (w.putHost ({ host with node }.follow joined w.latest)).settle)
      | (none, node, w) => (.ok (), (w.save { host with node }).settle)

def stop (name : String) (w : World) : World :=
  match w.host? name with
  | some host => (w.putHost { host with condition := .stopped, ear := none, search := none }).settle
  | none => w

/-- A client connection that sends these bytes; nothing if the node is not running. -/
def send (name : String) (bytes : Bytes) (w : World) : Option Bytes × World :=
  match w.host? name with
  | some host =>
    if host.isRunning then
      let (sent, w) := host.take w.link bytes w
      (some sent, w.settle)
    else (none, w)
  | none => (none, w)

def setClock (ms : Int) (w : World) : World := { w with clock := ms }.settle

def askStore (name : String) (call : StoreCall) (w : World) :
    Except StoreError call.Reply × World :=
  let store := ((w.host? name).map (·.store)).getD name
  let (reply, rows) := (w.store store).perform w.now call
  (reply, (w.putStore store rows).settle)

def addFault (name : String) (fault : Fault) (w : World) : World :=
  match w.host? name with
  | some host => (w.putHost (host.withDesk (host.node.desk.addFault fault))).settle
  | none => w

def takeEvents (name : String) (w : World) : List Event × World :=
  match w.host? name with
  | some host =>
    let desk := host.node.desk
    (desk.events, w.putHost (host.withDesk { desk with events := [] }))
  | none => ([], w)

/-- A bare socket that asks to join and stays. -/
def joinAs (guest name body : String) (w : World) : Option Frame.Response × World :=
  let req : Frame.Request := ⟨Frame.RequestKind.join.code, "fake", Text.encode body⟩
  match w.host? name with
  | some host =>
    if host.isRunning then
      let (sent, w) := host.take w.link (req.encode w.delimiters) w
      let guest : Guest := { name := guest, socket := w.latest.socket }
      let w := { w with guests := w.guests ++ [guest] }
      match (Frame.readResponse w.delimiters sent).1 with
      | .frame response => (some response, w.settle)
      | _ => (none, w.settle)
    else (none, w)
  | none => (none, w)

def leave (guest : String) (w : World) : World :=
  { w with guests := w.guests.filter (·.name != guest) }.settle

def nextHeartbeat (guest : String) (w : World) : Option Frame.Request × World :=
  match w.guests.find? (·.name == guest) with
  | some g =>
    match g.inbox with
    | req :: inbox => (some req, w.putGuest { g with inbox })
    | [] => (none, w)
  | none => (none, w)

def fake? (name : String) (w : World) : Option Fake := w.fakes.find? (·.name == name)

def push (name : String) (bytes : Bytes) (w : World) : World :=
  match (w.fake? name).bind (·.sockets.getLast?) with
  | none => w
  | some socket =>
    match w.hosts.find? fun h => h.isRunning && (h.ear.map (·.socket)) == some socket with
    | some host => (w.putHost (host.receive bytes)).settle
    | none => w

def addFake (name : String) (peer : ScriptedPeer) (w : World) : World :=
  let fake : Fake := { name, peer }
  { w with fakes := w.fakes ++ [fake] }.settle

def takeSeen (name : String) (w : World) : Option ScriptedPeer × World :=
  match w.fake? name with
  | some fake =>
    (some fake.peer, w.putFake { fake with peer := { fake.peer with seen := [] } })
  | none => (none, w)

def hangUp (name : String) (w : World) : World :=
  match w.fake? name with
  | some fake => (w.putFake { fake with sockets := [] }).settle
  | none => w

def kill (name : String) (w : World) : World :=
  { w with fakes := w.fakes.filter (·.name != name) }.settle

/-- Followers of scripted peers give up a leader that stays silent for this long. -/
def dropSilent (limit : Clock.Span) (w : World) : World :=
  let silent (h : Host) :=
    h.parameters.leaderTimeout ≤ limit && h.ear.any fun ear => (w.fake? ear.leader).isSome
  let drop (h : Host) (w : World) :=
    let search := { candidates := h.node.members.view }
    w.putHost { h with node := h.node.seek, ear := none, search := some search }
  (eachHost silent drop w).settle

end World
end CrawlCluster.Network
