import CrawlCluster.Net.Ip
import CrawlCluster.Peer
import CrawlCluster.Text.Utf8

set_option autoImplicit false

namespace CrawlCluster.Roster

open Net (Endpoint)

def initialIdentity (advertised : Option String) (bound : Endpoint) : Peer :=
  match advertised with
  | some address => { address, port := bound.port }
  | none =>
    if bound.ip.isUnspecified then { port := bound.port }
    else { address := bound.ip.text, port := bound.port }

def joinerIdentity (d : Delimiters) (body : Bytes) (remote : Endpoint) : Option Peer :=
  match (Text.decode? body).map fun body => d.fields (d.dropEntryEnd body) with
  | some [address, port] =>
    Peer.ofFields? (if address.isEmpty then remote.ip.text else address) port
  | _ => none

def isSelf (seed me : Peer) (bound : Endpoint) : Bool :=
  seed == me || (seed.port == bound.port && seed.address == bound.ip.text)

end CrawlCluster.Roster
