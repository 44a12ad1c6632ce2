import CrawlCluster.Peer

/-!
What nodes tell each other: heartbeats with the changes of membership, and the answers to a
node that wants to join. A message with one bad field says nothing at all.
-/

set_option autoImplicit false

namespace CrawlCluster.Roster

inductive MessageError where
  | missingFields
  | invalidPeer (text : String)
  | invalidCrawlId (text : String)
  | invalidChange (text : String)
  deriving DecidableEq, Repr

def MessageError.message : MessageError → String
  | .missingFields => "missing fields"
  | .invalidPeer text => "invalid peer: " ++ text
  | .invalidCrawlId text => "invalid crawl id: " ++ text
  | .invalidChange text => "invalid membership change: " ++ text

def readPeer (address port : String) : Except MessageError Peer :=
  match Peer.ofFields? address port with
  | some peer => .ok peer
  | none => .error (.invalidPeer (address ++ ":" ++ port))

inductive Change where
  | added (peer : Peer)
  | removed (peer : Peer)
  deriving DecidableEq, Repr

namespace Change

def peer : Change → Peer
  | .added peer | .removed peer => peer

def addedTag : String := "A"
def removedTag : String := "R"

def tag : Change → String
  | .added _ => addedTag
  | .removed _ => removedTag

def fields (change : Change) : List String := change.tag :: change.peer.fields

/-- The peer is looked at before the tag. -/
def ofFields (tag address port : String) : Except MessageError Change := do
  let peer ← readPeer address port
  if tag = addedTag then return .added peer
  else if tag = removedTag then return .removed peer
  else throw (.invalidChange tag)

def readAll : List String → Except MessageError (List Change)
  | tag :: address :: port :: rest => do
    let change ← ofFields tag address port
    return change :: (← readAll rest)
  | _ => .ok []

end Change

/-- From the leader to its followers: `crawl_id (F A|R F address F port)*`. -/
structure Heartbeat where
  crawlId : Int32
  changes : List Change
  deriving DecidableEq, Repr

namespace Heartbeat

def encode (d : Delimiters) (h : Heartbeat) : String :=
  d.joinFields (h.crawlId.toInt.repr :: h.changes.flatMap Change.fields)

def parse (d : Delimiters) (body : String) : Except MessageError Heartbeat :=
  match d.fields (d.dropEntryEnd body) with
  | [] => .error .missingFields
  | first :: rest =>
    match Text.Numeral.int32? (Text.trim first) with
    | none => .error (.invalidCrawlId first)
    | some crawlId =>
      if rest.length % 3 = 0 then (Change.readAll rest).map fun changes => { crawlId, changes }
      else .error .missingFields

end Heartbeat

inductive JoinAnswer where
  /-- The leader took the joiner in: how it sees the joiner, and the other followers in order. -/
  | accepted (you : Peer) (members : List Peer)
  /-- Somebody else leads. -/
  | redirect (leader : Peer)
  deriving DecidableEq, Repr

namespace JoinAnswer

def acceptedTag : String := "ok"

def encode (d : Delimiters) : JoinAnswer → String
  | .accepted you members => d.joinFields (acceptedTag :: (you :: members).flatMap Peer.fields)
  | .redirect leader => leader.encode d

def readPeers : List String → Except MessageError (List Peer)
  | address :: port :: rest => do
    let peer ← readPeer address port
    return peer :: (← readPeers rest)
  | _ => .ok []

def ofFields : List String → Except MessageError JoinAnswer
  | [] => .error .missingFields
  | first :: rest =>
    if first = acceptedTag then
      if rest.length % 2 = 0 then do
        match ← readPeers rest with
        | you :: members => return .accepted you members
        | [] => throw .missingFields
      else .error .missingFields
    else
      match rest with
      | [port] => (readPeer first port).map .redirect
      | _ => .error .missingFields

def parse (d : Delimiters) (message : String) : Except MessageError JoinAnswer :=
  ofFields (d.fields message)

end JoinAnswer
end CrawlCluster.Roster
