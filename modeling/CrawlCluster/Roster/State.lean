import CrawlCluster.Roster.Message

/-!
The role of a node and the members it knows. A leader keeps its followers in the order they
joined, each with the socket it joined on; a follower keeps the order it was told. The changes
a leader has not yet told anybody wait for the next heartbeat.
-/

set_option autoImplicit false

namespace CrawlCluster.Roster

inductive Role where
  | unstarted
  | attemptingJoin
  | leader
  | follower (leader : Peer)
  deriving DecidableEq, Repr

/-- The writing side of a connection, told apart by a name. -/
structure Socket where
  name : String
  deriving DecidableEq, Repr

structure ActivePeer where
  peer : Peer
  socket : Socket
  deriving DecidableEq, Repr

structure State where
  role : Role := .unstarted
  me : Peer := {}
  /-- Of a follower: the members in the order they joined. -/
  view : List Peer := []
  /-- Of a leader: the connected followers in the order they joined. -/
  active : List ActivePeer := []
  /-- Of a leader: what the next heartbeat tells. -/
  pending : List Change := []
  deriving DecidableEq, Repr

/-- A list with only the first of several equal items. -/
def firstOnly {α : Type} [DecidableEq α] : List α → List α
  | [] => []
  | x :: xs => x :: (firstOnly xs).filter (· ≠ x)

def Change.applyTo (view : List Peer) : Change → List Peer
  | .added peer => if peer ∈ view then view else view ++ [peer]
  | .removed peer => view.filter (· ≠ peer)

/-- The followers with one more; one that joins again keeps its place and changes its socket. -/
def putActive (entry : ActivePeer) : List ActivePeer → List ActivePeer
  | [] => [entry]
  | a :: active =>
    if a.peer = entry.peer then { a with socket := entry.socket } :: active
    else a :: putActive entry active

def takeActive (socket : Socket) : List ActivePeer → Option (Peer × List ActivePeer)
  | [] => none
  | a :: active =>
    if a.socket = socket then some (a.peer, active)
    else (takeActive socket active).map fun (peer, rest) => (peer, a :: rest)

namespace State

def isLeader (s : State) : Bool := s.role == .leader

def leader? (s : State) : Option Peer :=
  match s.role with
  | .leader => some s.me
  | .follower leader => some leader
  | .unstarted | .attemptingJoin => none

def followers (s : State) : List Peer := s.active.map (·.peer)

/-- Every member known, once: the leader first, the node itself last if nowhere else. -/
def currentPeers (s : State) : List Peer :=
  let others :=
    match s.role with
    | .leader => s.followers
    | .follower _ => s.view
    | .unstarted | .attemptingJoin => []
  firstOnly (s.leader?.toList ++ others ++ [s.me])

def apply (change : Change) (s : State) : State := { s with view := change.applyTo s.view }

def applyAll (changes : List Change) (s : State) : State :=
  changes.foldl (fun s change => s.apply change) s

def addActive (peer : Peer) (socket : Socket) (s : State) : State :=
  { s with
    active := putActive ⟨peer, socket⟩ s.active
    pending := s.pending ++ [.added peer] }

/-- The followers a joiner is told of, and the leader once it is taken in. -/
def takeIn (peer : Peer) (socket : Socket) (s : State) : List Peer × State :=
  (s.followers.filter (· ≠ peer), s.addActive peer socket)

/-- Drop the follower whose socket failed; a socket nobody is on any more changes nothing. -/
def removeActive (socket : Socket) (s : State) : State :=
  match takeActive socket s.active with
  | none => s
  | some (peer, active) => { s with active, pending := s.pending ++ [.removed peer] }

def takePending (s : State) : List Change × State := (s.pending, { s with pending := [] })

/-- Taken in by `leader` as `you`, beside the other followers. -/
def follow (leader you : Peer) (members : List Peer) (s : State) : State :=
  applyAll ((members ++ [you]).map .added)
    { s with role := .follower leader, me := you, view := [] }

def lead (s : State) : State := { s with role := .leader, view := [] }

end State
end CrawlCluster.Roster
