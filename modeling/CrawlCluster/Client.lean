import CrawlCluster.Frame.Stream
import CrawlCluster.Job.Payload

/-!
The worker's end of a connection. A client sends one request and reads one response; unlike a
node it takes a header of any length, makes room for the whole payload before it reads any of it,
and calls a stream that ends inside a payload broken.
-/

set_option autoImplicit false

namespace CrawlCluster.Client

open CrawlCluster.Frame (HeaderError Request RequestKind Response Status)

inductive Error where
  | disconnected
  /-- The stream ended inside a payload. -/
  | broken
  /-- The client was stopped: there is no room for as many bytes as were announced. -/
  | noRoom
  | header (error : HeaderError)
  | decoding (error : PayloadError)
  | turnedDown (status : Status) (text : String)
  deriving DecidableEq, Repr

def statusName : Status → String
  | .success => "Success"
  | .clientError => "ClientError"
  | .serverError => "ServerError"

def Error.message : Error → String
  | .disconnected => "server closed the connection"
  | .broken => "io error: "
  | .noRoom => "capacity overflow"
  | .header error => "invalid response header: " ++ error.message
  | .decoding error => "data decoding error: " ++ error.message
  | .turnedDown status text => "request failed (" ++ statusName status ++ "): " ++ text

/-- No buffer has more bytes, whatever memory there is. -/
def bufferLimit : Nat := 0x7FFFFFFFFFFFFFFF

theorem bufferLimit_lt_size : bufferLimit < UInt64.size := by decide

/-- The next response, read by a client that can have a buffer of `room` bytes. -/
def readResponse (room : Nat) (d : Delimiters) (bytes : Bytes) : Except Error Response × Bytes :=
  match Frame.cutAt d.entry bytes with
  | none => (.error .disconnected, [])
  | some (line, rest) =>
    match Text.decode? line with
    | none => (.error (.header .notUtf8), rest)
    | some line =>
      match Frame.ResponseHeader.parse d line with
      | .error e => (.error (.header e), rest)
      | .ok header =>
        if room < header.length then (.error .noRoom, rest)
        else if header.length ≤ rest.length then
          (.ok ⟨header.status, rest.take header.length⟩, rest.drop header.length)
        else (.error .broken, [])

def check (response : Response) : Except Error Response :=
  if response.isSuccess then .ok response else .error (.turnedDown response.status response.text)

def ofPayload {α : Type} : Except PayloadError α → Except Error α
  | .ok value => .ok value
  | .error e => .error (.decoding e)

def readPeer (d : Delimiters) (entry : String) : Except Error Peer :=
  match d.fields entry with
  | address :: port :: _ =>
    match Peer.ofFields? address port with
    | some peer => .ok peer
    | none => .error (.decoding .argumentCount)
  | _ => .error (.decoding .argumentCount)

def parsePeers (d : Delimiters) (message : String) : Except Error (List Peer) :=
  (d.entries message).mapM (readPeer d)

inductive Call where
  | takeJob
  | renewLease (lease : Lease)
  | reportJob (report : Report)
  | uploadJobs (jobs : List NewJob)
  | uploadHarvest (harvest : Harvest)
  | listPeers
  deriving DecidableEq, Repr

abbrev Call.Value : Call → Type
  | .takeJob => Assignment
  | .renewLease _ => Int64
  | .listPeers => List Peer
  | .reportJob _ | .uploadJobs _ | .uploadHarvest _ => Unit

namespace Call

def kind : Call → RequestKind
  | .takeJob => .takeJob
  | .renewLease _ => .renewLease
  | .reportJob _ => .reportJob
  | .uploadJobs _ => .uploadJobs
  | .uploadHarvest _ => .uploadHarvest
  | .listPeers => .listPeers

def body (d : Delimiters) : Call → String
  | .takeJob | .listPeers => ""
  | .renewLease lease => lease.encode d
  | .reportJob report => report.encode d
  | .uploadJobs jobs => NewJob.encodeBatch d jobs
  | .uploadHarvest harvest => harvest.encode d

def request (d : Delimiters) (client : String) (call : Call) : Request :=
  ⟨call.kind.code, client, Text.encode (call.body d)⟩

def decode (d : Delimiters) (response : Response) : (call : Call) → Except Error call.Value
  | .takeJob => ofPayload (Assignment.parse d response.text)
  | .renewLease _ =>
    match Text.Numeral.int64? (Text.trim response.text) with
    | some leaseTime => .ok leaseTime
    | none => .error (.decoding .jobTime)
  | .listPeers => parsePeers d response.text
  | .reportJob _ | .uploadJobs _ | .uploadHarvest _ => .ok ()

def result (d : Delimiters) (call : Call) (response : Except Error Response) :
    Except Error call.Value := do
  call.decode d (← check (← response))

def receive (d : Delimiters) (call : Call) (bytes : Bytes) : Except Error call.Value × Bytes :=
  let (response, rest) := readResponse bufferLimit d bytes
  (call.result d response, rest)

end Call
end CrawlCluster.Client
