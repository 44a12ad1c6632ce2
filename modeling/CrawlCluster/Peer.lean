import CrawlCluster.Delimiters
import CrawlCluster.Text.Numeral

set_option autoImplicit false

namespace CrawlCluster

structure Peer where
  address : String := ""
  port : UInt16 := 0
  deriving DecidableEq, Repr, Inhabited

namespace Peer

/-- The port a member listens on unless another is given. -/
def defaultPort : UInt16 := 8003

def label (p : Peer) : String := p.address ++ ":" ++ p.port.toNat.repr

theorem toList_label (p : Peer) :
    p.label.toList = p.address.toList ++ ':' :: p.port.toNat.repr.toList := by
  simp [label]

instance : ToString Peer := ⟨label⟩

def fields (p : Peer) : List String := [p.address, p.port.toNat.repr]

def encode (d : Delimiters) (p : Peer) : String := d.joinFields p.fields

def ofFields? (address port : String) : Option Peer :=
  if address.isEmpty then none
  else (Text.Numeral.uint16? (Text.trim port)).map fun port => { address, port }

/-- `host:port`, or a host alone. The last colon counts, so a host may hold colons itself, but
not end in one. -/
def ofHostPort? (s : String) (defaultPort : UInt16) : Option Peer :=
  let s := Text.trim s
  if s.isEmpty then none
  else
    match Text.splitLast? ':' s with
    | none => some { address := s, port := defaultPort }
    | some (host, port) =>
      if host.isEmpty || host.toList.getLast? == some ':' then none
      else (Text.Numeral.uint16? port).map fun port => { address := host, port }

def le (p q : Peer) : Bool :=
  p.address < q.address || (p.address == q.address && p.port ≤ q.port)

def sort (peers : List Peer) : List Peer := peers.mergeSort le

end Peer
end CrawlCluster
