import CrawlCluster.Frame.Stream
import CrawlCluster.Roster.State

/-!
Joining a leader: ask, follow redirects up to a bound, and take the first answer that settles
the matter. How other nodes are reached is a parameter, so the network may be anything.
-/

set_option autoImplicit false

namespace CrawlCluster

inductive Reply where
  | refused
  /-- The bytes that came back, and whether the other side then closed. -/
  | bytes (bytes : Bytes) (closed : Bool)
  deriving DecidableEq, Repr

/-- How other nodes are reached, and what reaching them does to the network. -/
structure Link (ν : Type) where
  exchange : Peer → Bytes → ν → Reply × ν

/-- A network in which nobody can be reached. -/
def Link.nobody : Link Unit := ⟨fun _ _ net => (.refused, net)⟩

namespace Roster

inductive JoinError where
  | unreachable
  | disconnected
  | invalidFrame (error : Frame.HeaderError)
  | timeout
  | refused (text : String)
  | invalidAnswer (error : MessageError)
  | tooManyRedirects
  | redirectedToSelf
  deriving DecidableEq, Repr

def JoinError.message : JoinError → String
  | .unreachable => "io: "
  | .disconnected => "connection: peer disconnected"
  | .invalidFrame error => "connection: invalid response: " ++ error.message
  | .timeout => "timeout"
  | .refused text => "refused: " ++ text
  | .invalidAnswer error => "invalid join response: " ++ error.message
  | .tooManyRedirects => "too many redirects"
  | .redirectedToSelf => "redirected to self"

structure Joined where
  leader : Peer
  you : Peer
  members : List Peer
  /-- What the leader sent behind its answer. -/
  rest : Bytes := []
  deriving DecidableEq, Repr

/-- Dials made in one attempt. -/
def maxDials : Nat := 8

def joinRequest (d : Delimiters) (me : Peer) : Bytes :=
  Frame.Request.encode d ⟨Frame.RequestKind.join.code, me.label, Text.encode (me.encode d)⟩

/-- The one response read off a reply, and the bytes behind it. -/
def readReply (d : Delimiters) : Reply → Except JoinError (Frame.Response × Bytes)
  | .refused => .error .unreachable
  | .bytes bytes closed =>
    match Frame.readResponse d bytes with
    | (.frame response, rest) => .ok (response, rest)
    | (.rejected error, _) => .error (.invalidFrame error)
    | (.ended, _) => .error (if closed then .disconnected else .timeout)

def readAnswer (d : Delimiters) (reply : Reply) : Except JoinError (JoinAnswer × Bytes) := do
  let (response, rest) ← readReply d reply
  if response.isSuccess then
    match JoinAnswer.parse d response.text with
    | .ok answer => return (answer, rest)
    | .error error => throw (.invalidAnswer error)
  else throw (.refused response.text)

variable {ν : Type}

/-- Ask `target`, or whoever it names as its leader, with `dials` left. -/
def joinFrom (link : Link ν) (d : Delimiters) (me : Peer) :
    (dials : Nat) → (target : Peer) → ν → Except JoinError Joined × ν
  | 0, _, net => (.error .tooManyRedirects, net)
  | dials + 1, target, net =>
    let (reply, net) := link.exchange target (joinRequest d me) net
    match readAnswer d reply with
    | .error error => (.error error, net)
    | .ok (.accepted you members, rest) => (.ok { leader := target, you, members, rest }, net)
    | .ok (.redirect leader, _) =>
      if leader = me then (.error .redirectedToSelf, net) else joinFrom link d me dials leader net

def join (link : Link ν) (d : Delimiters) (me target : Peer) (net : ν) :
    Except JoinError Joined × ν :=
  joinFrom link d me maxDials target net

def joinFirst (link : Link ν) (d : Delimiters) (me : Peer) : List Peer → ν → Option Joined × ν
  | [], net => (none, net)
  | target :: targets, net =>
    match join link d me target net with
    | (.ok joined, net) => (some joined, net)
    | (.error _, net) => joinFirst link d me targets net

end Roster
end CrawlCluster
