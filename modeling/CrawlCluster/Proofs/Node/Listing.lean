import CrawlCluster.Proofs.Node.Calls
import CrawlCluster.Proofs.Node.Handshake

set_option autoImplicit false

namespace CrawlCluster

variable {d : Delimiters}

namespace Peer

theorem encode_ne_empty (d : Delimiters) (p : Peer) : p.encode d ≠ "" :=
  Text.join_ne_empty d.fieldChar p.address p.port.toNat.repr []

theorem entry_not_mem_encode (hd : d.Framing) {p : Peer} (h : d.entryChar ∉ p.address.toList) :
    d.entryChar ∉ (p.encode d).toList := by
  refine Text.not_mem_join hd.entryChar_ne_fieldChar ?_
  simp only [fields, List.mem_cons, List.not_mem_nil, or_false, forall_eq_or_imp, forall_eq]
  exact ⟨h, Text.Numeral.not_mem_repr hd.entry_not_digit _⟩

end Peer

namespace Client

theorem readPeer_encode (hd : d.Framing) {p : Peer} (h : p.Plain d) :
    readPeer d (p.encode d) = .ok p := by
  rw [readPeer, Peer.fields_encode hd.field_not_digit h.field]
  simp only [h.ofFields?]

theorem parsePeers_closeEntries (hd : d.Framing) {peers : List Peer} (h : ∀ p ∈ peers, p.Plain d)
    (hentry : ∀ p ∈ peers, d.entryChar ∉ p.address.toList) :
    parsePeers d (d.closeEntries (peers.map (Peer.encode d))) = .ok peers := by
  rw [parsePeers, Delimiters.entries_closeEntries]
  · exact mapM_map_eq_ok fun p hp => readPeer_encode hd (h p hp)
  · simpa using fun p hp => Peer.entry_not_mem_encode hd (hentry p hp)
  · simpa using fun p _ => Peer.encode_ne_empty d p

theorem address_mem_of_readPeer {entry : String} {p : Peer} (h : readPeer d entry = .ok p) :
    p.address ∈ d.fields entry := by
  unfold readPeer at h
  split at h
  · next address port more hfields =>
    cases hread : Peer.ofFields? address port with
    | none =>
      simp only [hread] at h
      cases h
    | some peer =>
      simp only [hread] at h
      cases h
      rw [hfields, (Peer.address_of_ofFields? hread).1]
      exact List.mem_cons_self
  · cases h

/-- Whatever the text, no peer is read in it whose address holds the separator of entries. -/
theorem entry_not_mem_of_parsePeers {text : String} {peers : List Peer}
    (h : parsePeers d text = .ok peers) : ∀ p ∈ peers, d.entryChar ∉ p.address.toList := by
  intro p hp hmem
  obtain ⟨entry, hentry, hread⟩ := exists_of_mapM_eq_ok h p hp
  exact Delimiters.entry_not_mem_of_mem_entries hentry
    (Text.mem_of_mem_split (address_mem_of_readPeer hread) hmem)

end Client

theorem Roster.State.mem_currentPeers_of_leads {s : State} (hlead : s.role = .leader) {p : Peer} :
    p ∈ s.currentPeers ↔ p = s.me ∨ p ∈ s.followers := by
  have hself : s.leader? = some p ↔ p = s.me := by simp [leader?, hlead, eq_comm]
  rw [mem_currentPeers, Knows, hself, hlead]
  tauto

namespace Node

open Client (Call)
open Coordinator (Site)

variable {σ ν : Type} {link : Link ν} {l : Life σ ν}

/-- Addresses that are known are listed as they are. -/
theorem peerList_known (ownIp : Net.Ip) {node : Node σ}
    (h : ∀ p ∈ node.members.currentPeers, p.address ≠ "") :
    node.peerList ownIp = node.delimiters.closeEntries
      (node.members.currentPeers.map (Peer.encode node.delimiters)) := by
  refine congrArg node.delimiters.closeEntries (List.map_congr_left fun p hp => ?_)
  have hknown : p.address.isEmpty = false := by simpa using h p hp
  simp only [hknown, Bool.false_eq_true, if_false]

theorem result_listPeers (site : Site σ) (conn : Connection) (req : Frame.Request)
    (node : Node σ) :
    Call.listPeers.result {} (.ok (node.handle site conn .listPeers req).1) =
      Client.parsePeers {} (node.peerList conn.ownIp) := by
  refine (Call.result_success (node.peerList conn.ownIp)).trans ?_
  rw [Call.decode_listPeers, success_text]

/-- What a client makes of the list of members that a leader answers with which has a proper address
of its own, whoever joined and left before: the members are read back, in their order, just if the
address of no follower holds the separator of entries. -/
theorem listing_read_back (h : l.Lived link) (hlead : l.node.members.role = .leader)
    (hme : l.node.members.me.Plain {})
    (hentry : ({} : Delimiters).entryChar ∉ l.node.members.me.address.toList)
    (site : Site σ) (conn : Connection) (req : Frame.Request) :
    Call.listPeers.result {} (.ok (l.node.handle site conn .listPeers req).1) =
        .ok l.node.members.currentPeers ↔
      ∀ p ∈ l.node.members.followers, ({} : Delimiters).entryChar ∉ p.address.toList := by
  obtain ⟨hnode, -, hfollowers⟩ := h.followers
  have hmember {p : Peer} := Roster.State.mem_currentPeers_of_leads hlead (p := p)
  have hplain : ∀ p ∈ l.node.members.currentPeers, p.Plain {} := by
    intro p hp
    rcases hmember.1 hp with rfl | hp
    · exact hme
    · exact hfollowers p hp
  rw [result_listPeers, peerList_known conn.ownIp fun p hp => (hplain p hp).nonempty, hnode]
  constructor
  · intro hread p hp
    exact Client.entry_not_mem_of_parsePeers hread p (hmember.2 (.inr hp))
  · intro hfree
    refine Client.parsePeers_closeEntries Delimiters.framing_default hplain fun p hp => ?_
    rcases hmember.1 hp with rfl | hp
    · exact hentry
    · exact hfree p hp

def misnamed : Life Store Unit :=
  Life.rejoined [Life.joinOf ⟨"a\nb", 9000⟩ ⟨"d"⟩]

theorem listing_read_back_misnamed :
    (misnamed.Lived Link.nobody ∧ misnamed.node.members.role = .leader ∧
      misnamed.node.members.me.Plain {} ∧
      ({} : Delimiters).entryChar ∉ misnamed.node.members.me.address.toList) ∧
    Call.listPeers.result {} (.ok (misnamed.node.handle Life.quietSite fromAfar .listPeers
      ⟨"gtip", "w", []⟩).1) = .error (.decoding .argumentCount) ∧
    misnamed.node.members.currentPeers =
      [⟨"z", 7000⟩, ⟨"x", 1⟩, ⟨"y", 2⟩, ⟨"a\nb", 9000⟩] ∧
    ¬ ∀ p ∈ misnamed.node.members.followers, ({} : Delimiters).entryChar ∉ p.address.toList := by
  have hlived : misnamed.Lived Link.nobody :=
    ⟨{}, { store := {} }, (), Life.rejoining ++ [Life.joinOf ⟨"a\nb", 9000⟩ ⟨"d"⟩], rfl, rfl⟩
  have hlead : misnamed.node.members.role = .leader := by decide +kernel
  have hme : misnamed.node.members.me = ⟨"z", 7000⟩ := by decide +kernel
  have hplain : misnamed.node.members.me.Plain {} := by
    rw [hme]
    constructor <;> decide
  have hentry : ({} : Delimiters).entryChar ∉ misnamed.node.members.me.address.toList := by
    rw [hme]
    decide
  have hread : Call.listPeers.result {} (.ok (misnamed.node.handle Life.quietSite fromAfar
      .listPeers ⟨"gtip", "w", []⟩).1) = .error (.decoding .argumentCount) := by decide +kernel
  have hlost := (listing_read_back hlived hlead hplain hentry Life.quietSite fromAfar
    ⟨"gtip", "w", []⟩).not
  refine ⟨⟨hlived, hlead, hplain, hentry⟩, hread, by decide +kernel, hlost.1 fun hsame => ?_⟩
  cases hread.symm.trans hsame

end Node
end CrawlCluster
