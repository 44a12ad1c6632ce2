import CrawlCluster.Proofs.Net.Addresses
import CrawlCluster.Proofs.Roster.RoundTrip
import Mathlib.Algebra.Group.Nat.Defs

set_option autoImplicit false

namespace CrawlCluster

open Net (Ip)

theorem Text.length_repr_le {n k : Nat} (hk : 0 < k) (h : n < 10 ^ k) :
    n.repr.toList.length ≤ k := by
  rwa [Nat.toList_repr, Nat.length_toDigits_le_iff (by decide) hk]

namespace Peer

theorem length_port_le (p : Peer) : p.port.toNat.repr.toList.length ≤ 5 := by
  refine Text.length_repr_le (by decide) ?_
  have hp := p.port.toNat_lt
  omega

theorem length_label_le (p : Peer) : p.label.toList.length ≤ p.address.toList.length + 6 := by
  have hport := p.length_port_le
  rw [toList_label, List.length_append, List.length_cons]
  omega

theorem length_encode_le (d : Delimiters) (p : Peer) :
    (p.encode d).toList.length ≤ p.address.toList.length + 6 := by
  have hport := p.length_port_le
  rw [encode, fields, Delimiters.joinFields, Text.toList_join_cons, Text.toList_join_singleton,
    List.length_append, List.length_cons]
  omega

theorem mem_label {p : Peer} {c : Char} (h : c ∈ p.label.toList) :
    c ∈ p.address.toList ∨ c = ':' ∨ c.isDigit = true := by
  rw [toList_label, List.mem_append, List.mem_cons] at h
  rcases h with h | h | h
  · exact .inl h
  · exact .inr (.inl h)
  · exact .inr (.inr (Text.Numeral.isDigit_of_mem_repr h))

theorem address_of_ofFields? {address port : String} {p : Peer}
    (h : Peer.ofFields? address port = some p) : p.address = address ∧ address ≠ "" := by
  rw [ofFields?] at h
  split at h
  · cases h
  · next hempty =>
    obtain ⟨port, -, rfl⟩ := Option.map_eq_some_iff.1 h
    exact ⟨rfl, by simpa using hempty⟩

end Peer

namespace Roster

variable {p me : Peer} {ip : Ip} {remote : Net.Endpoint}

theorem plain_of_ofText? (h : Ip.ofText? p.address = some ip) : p.Plain {} := by
  refine ⟨fun hempty => ?_, fun hmem => ?_⟩
  · have hnone : Ip.ofText? "" = none := by decide
    rw [hempty, hnone] at h
    cases h
  · have hfield := (Ip.spelling_of_ofText? h).2 _ hmem
    exact absurd hfield (by unfold Ip.Legible; decide)

theorem plain_of_address (h : p.address = ip.text) : p.Plain {} :=
  have hread : Ip.ofText? p.address = some ip := h ▸ ip.ofText?_text
  plain_of_ofText? hread

/-- Whoever may join can be named between the default separators. -/
theorem plain_of_joinerIdentity {body : Bytes} (h : joinerIdentity {} body remote = some p) :
    p.Plain {} := by
  rw [joinerIdentity] at h
  split at h
  · next address port hread =>
    obtain ⟨text, -, hfields⟩ := Option.map_eq_some_iff.1 hread
    obtain ⟨haddress, hnonempty⟩ := Peer.address_of_ofFields? h
    split at haddress
    · exact plain_of_address haddress
    · next hgiven =>
      rw [if_neg hgiven] at hnonempty
      have hmem : address ∈ ({} : Delimiters).fields (({} : Delimiters).dropEntryEnd text) := by
        rw [hfields]
        exact List.mem_cons_self
      have hfield := Text.not_mem_of_mem_split hmem
      exact ⟨haddress ▸ hnonempty, haddress ▸ hfield⟩
  · cases h

structure Askable (me : Peer) : Prop where
  field : ({} : Delimiters).fieldChar ∉ me.address.toList
  entry : ({} : Delimiters).entryChar ∉ me.address.toList
  line : (Text.encode ((joinFrame {} me).header.encode {})).length ≤ Frame.maxHeaderLength

namespace Askable

theorem plain_seenFrom (h : Askable me) (remote : Net.Endpoint) :
    (seenFrom remote me).Plain {} := by
  by_cases hempty : me.address = ""
  · have haddress : (seenFrom remote me).address = remote.ip.text := by simp [seenFrom, hempty]
    exact plain_of_address haddress
  · rw [seenFrom_of_nonempty hempty]
    exact ⟨hempty, h.field⟩

/-- The address stands in the header line, whose limit bounds the body as well. -/
theorem length_body_lt (h : Askable me) : (joinFrame {} me).body.length < UInt64.size := by
  have hlabel : me.address.toList.Sublist me.label.toList := by
    rw [Peer.toList_label]
    exact List.sublist_append_left ..
  have hheader : me.address.toList.Sublist ((joinFrame {} me).header.encode {}).toList := by
    rw [Frame.toList_encode_header]
    exact ((hlabel.trans (List.sublist_append_left ..)).cons _).trans (List.sublist_append_right ..)
  have haddress := (Text.encode_sublist hheader).length_le
  have hline := h.line
  have hport := Text.length_encode_le me.port.toNat.repr
  have hdigits := me.length_port_le
  have hsep := ({} : Delimiters).fieldChar.utf8Size_le_four
  have hlimit : Frame.maxHeaderLength + 4 + 4 * 5 < UInt64.size := by decide
  rw [body_joinFrame, Peer.encode, Delimiters.joinFields, Peer.fields, Text.encode_join]
  simp only [List.flatMap_cons, List.flatMap_nil, List.append_nil, List.length_append,
    String.length_utf8EncodeChar]
  omega

theorem fits (h : Askable me) : (joinFrame {} me).Fits {} where
  code := by
    show _ ∉ Frame.RequestKind.join.code.toList ∧ _ ∉ Frame.RequestKind.join.code.toList
    decide
  client := by
    constructor
    · exact fun hmem => (Peer.mem_label hmem).elim h.field (by decide)
    · exact fun hmem => (Peer.mem_label hmem).elim h.entry (by decide)
  line := h.line
  body := h.length_body_lt

end Askable

theorem askable_of_ofText? (h : Ip.ofText? p.address = some ip) : Askable p := by
  obtain ⟨hlength, hlegible⟩ := Ip.spelling_of_ofText? h
  have hlabel := p.length_label_le
  have hbody : (joinFrame {} p).body.length < 10 ^ 3 := by
    have hle := Text.length_encode_le (p.encode {})
    have hshort := p.length_encode_le {}
    rw [body_joinFrame]
    omega
  have hline : (Text.encode ((joinFrame {} p).header.encode {})).length ≤
      Frame.maxHeaderLength := by
    refine (Text.length_encode_le _).trans ?_
    have hcode : (joinFrame {} p).header.code.toList.length = 4 := by
      show Frame.RequestKind.join.code.toList.length = 4
      decide
    have hclient : (joinFrame {} p).header.client = p.label := rfl
    have hcount : (joinFrame {} p).header.length.repr.toList.length ≤ 3 :=
      Text.length_repr_le (by decide) hbody
    rw [Frame.toList_encode_header, Frame.maxHeaderLength, hclient]
    simp only [List.length_append, List.length_cons, hcode]
    omega
  refine ⟨fun hmem => ?_, fun hmem => ?_, hline⟩
  · exact absurd (hlegible _ hmem) (by unfold Ip.Legible; decide)
  · exact absurd (hlegible _ hmem) (by unfold Ip.Legible; decide)

theorem named_of_ofText? (h : Ip.ofText? p.address = some ip) : Named {} p :=
  ⟨plain_of_ofText? h, (askable_of_ofText? h).fits⟩

theorem length_fields_le (sep : Char) {peers : List Peer}
    (h : ∀ p ∈ peers, ∃ ip, Ip.ofText? p.address = some ip) :
    ((peers.flatMap Peer.fields).flatMap fun s =>
      String.utf8EncodeChar sep ++ Text.encode s).length ≤ 2 ^ 9 * peers.length := by
  induction peers with
  | nil => exact Nat.le_refl 0
  | cons p peers ih =>
    obtain ⟨⟨ip, hip⟩, hrest⟩ := List.forall_mem_cons.1 h
    have haddress := (Ip.spelling_of_ofText? hip).1
    have hport := p.length_port_le
    have hsep := sep.utf8Size_le_four
    have hfirst := Text.length_encode_le p.address
    have hsecond := Text.length_encode_le p.port.toNat.repr
    have hpeers := ih hrest
    rw [List.flatMap_cons, List.flatMap_append, List.length_append, Peer.fields]
    simp only [List.flatMap_cons, List.flatMap_nil, List.append_nil, List.length_append,
      String.length_utf8EncodeChar, List.length_cons]
    omega

theorem JoinAnswer.length_encode_accepted_lt {you : Peer} {members : List Peer}
    (h : ∀ p ∈ you :: members, ∃ ip, Ip.ofText? p.address = some ip)
    (hcount : (you :: members).length < 2 ^ 54) :
    (Text.encode ((JoinAnswer.accepted you members).encode {})).length < UInt64.size := by
  have htag : (Text.encode JoinAnswer.acceptedTag).length = 2 := by decide
  have hmembers := length_fields_le ({} : Delimiters).fieldChar h
  have hsize : 2 + 2 ^ 9 * (2 ^ 54 - 1) < UInt64.size := by decide
  rw [JoinAnswer.encode, Delimiters.joinFields, Text.encode_join, List.length_append, htag]
  omega

end Roster
end CrawlCluster
