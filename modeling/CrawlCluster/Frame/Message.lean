import CrawlCluster.Frame.Header

set_option autoImplicit false

namespace CrawlCluster.Frame

inductive RequestKind where
  | join
  | listPeers
  | uploadJobs
  | uploadHarvest
  | takeJob
  | renewLease
  | reportJob
  | heartbeat
  deriving DecidableEq, Repr

namespace RequestKind

def all : List RequestKind :=
  [.join, .listPeers, .uploadJobs, .uploadHarvest, .takeJob, .renewLease, .reportJob, .heartbeat]

def code : RequestKind → String
  | .join => "conn"
  | .listPeers => "gtip"
  | .uploadJobs => "upjb"
  | .uploadHarvest => "upcd"
  | .takeJob => "gtjb"
  | .renewLease => "udjb"
  | .reportJob => "fnjb"
  | .heartbeat => "hrtb"

def ofCode? (code : String) : Option RequestKind := all.find? (·.code == code)

/-- Only the leader acts on these; any other node passes them on. -/
def leaderOnly : RequestKind → Bool
  | .join | .heartbeat => false
  | _ => true

end RequestKind

structure Request where
  code : String
  client : String
  body : Bytes
  deriving DecidableEq, Repr

def Request.encode (d : Delimiters) (r : Request) : Bytes :=
  assemble d (RequestHeader.encode d ⟨r.code, r.client, r.body.length⟩) r.body

structure Response where
  status : Status
  message : Bytes
  deriving DecidableEq, Repr

namespace Response

def success (text : String) : Response := ⟨.success, Text.encode text⟩
def clientError (text : String) : Response := ⟨.clientError, Text.encode text⟩
def serverError (text : String) : Response := ⟨.serverError, Text.encode text⟩

def isSuccess (r : Response) : Bool := r.status == .success

def text (r : Response) : String := Text.decodeLossy r.message

def encode (d : Delimiters) (r : Response) : Bytes :=
  assemble d (ResponseHeader.encode d ⟨r.status, r.message.length⟩) r.message

end Response
end CrawlCluster.Frame
