import CrawlCluster.Proofs.Roster.Replay

/-!
A leader and those who joined it. Every join opens a line of its own, on which the answer comes
first and then the heartbeats sent while the line is in use; a follower hears them one by one, and
at any later time. Lines fail, and peers join again, in any order.
-/

set_option autoImplicit false

namespace CrawlCluster.Roster

inductive Message where
  | taken (leader you : Peer) (members : List Peer)
  | beat (changes : List Change)
  deriving DecidableEq, Repr

def State.hear (s : State) : Message → State
  | .taken leader you members => s.follow leader you members
  | .beat changes => s.applyAll changes

structure Line where
  socket : Socket
  peer : Peer
  /-- Whose removal was still to be told when the peer joined. -/
  untold : List Peer
  /-- The followers there were then, the peer included, that have stayed since. -/
  stayed : List Peer
  follower : State
  /-- What was sent and is not yet heard. -/
  inbox : List Message
  deriving DecidableEq, Repr

namespace Line

def ofJoin (peer : Peer) (socket : Socket) (before leader : State) : Line :=
  let (members, taken) := leader.takeIn peer socket
  { socket, peer, untold := removals taken.pending, stayed := taken.followers, follower := before
    inbox := [.taken leader.me peer members] }

def send (message : Message) (line : Line) : Line :=
  { line with inbox := line.inbox ++ [message] }

def hear (line : Line) : Line :=
  match line.inbox with
  | [] => line
  | message :: inbox => { line with follower := line.follower.hear message, inbox }

@[simp] theorem socket_hear (line : Line) : line.hear.socket = line.socket := by
  unfold hear
  split <;> rfl

@[simp] theorem peer_hear (line : Line) : line.hear.peer = line.peer := by
  unfold hear
  split <;> rfl

@[simp] theorem untold_hear (line : Line) : line.hear.untold = line.untold := by
  unfold hear
  split <;> rfl

@[simp] theorem stayed_hear (line : Line) : line.hear.stayed = line.stayed := by
  unfold hear
  split <;> rfl

/-- The view of the follower once it has heard all that was sent, and the changes to be told. -/
def outlook (changes : List Change) (line : Line) : List Peer :=
  replay changes (line.inbox.foldl State.hear line.follower).view

theorem outlook_heard {line : Line} (h : line.inbox = []) :
    line.outlook [] = line.follower.view := by
  simp [outlook, h, replay]

theorem outlook_append (changes more : List Change) (line : Line) :
    line.outlook (changes ++ more) = replay more (line.outlook changes) := replay_append ..

theorem foldl_hear (line : Line) :
    line.hear.inbox.foldl State.hear line.hear.follower =
      line.inbox.foldl State.hear line.follower := by
  unfold hear
  cases h : line.inbox with
  | nil => simp [h]
  | cons message inbox => rfl

theorem outlook_hear (changes : List Change) (line : Line) :
    line.hear.outlook changes = line.outlook changes := by
  rw [outlook, outlook, foldl_hear]

theorem outlook_beat (changes : List Change) (line : Line) :
    (line.send (.beat changes)).outlook [] = line.outlook changes := by
  simp only [outlook, send, List.foldl_append, List.foldl_cons, List.foldl_nil, State.hear]
  exact view_applyAll changes _

end Line

structure Cohort where
  leader : State
  lines : List Line := []
  deriving Repr

namespace Cohort

def start (me : Peer) : Cohort := { leader := State.lead { me } }

def join (peer : Peer) (socket : Socket) (before : State) (c : Cohort) : Cohort :=
  { leader := (c.leader.takeIn peer socket).2
    lines := c.lines ++ [.ofJoin peer socket before c.leader] }

def tick (c : Cohort) : Cohort :=
  let (changes, leader) := c.leader.takePending
  { leader
    lines := c.lines.map fun line =>
      if line.socket ∈ c.leader.active.map (·.socket) then line.send (.beat changes) else line }

def lose (socket : Socket) (c : Cohort) : Cohort :=
  let leader := c.leader.removeActive socket
  { leader
    lines := c.lines.map fun line =>
      { line with stayed := line.stayed.filter (· ∈ leader.followers) } }

def hear (socket : Socket) (c : Cohort) : Cohort :=
  { c with lines := c.lines.map fun line => if line.socket = socket then line.hear else line }

/-- What can come of a leader that begins with no followers. -/
inductive Reachable : Cohort → Prop where
  | start (me : Peer) : Reachable (start me)
  | join {c : Cohort} (hc : Reachable c) (peer : Peer) {socket : Socket} (before : State)
    (hfresh : ∀ line ∈ c.lines, line.socket ≠ socket) : Reachable (c.join peer socket before)
  | tick {c : Cohort} (hc : Reachable c) : Reachable c.tick
  | lose {c : Cohort} (hc : Reachable c) (socket : Socket) : Reachable (c.lose socket)
  | hear {c : Cohort} (hc : Reachable c) (socket : Socket) : Reachable (c.hear socket)

def Serves (c : Cohort) (line : Line) : Prop := ⟨line.peer, line.socket⟩ ∈ c.leader.active

end Cohort
end CrawlCluster.Roster
