import CrawlCluster.Proofs.Frame.Reading
import CrawlCluster.Roster.Identity
import CrawlCluster.Roster.Joining
import Mathlib.Data.List.Flatten
import Mathlib.Data.List.Perm.Subperm

set_option autoImplicit false

namespace CrawlCluster

open Text.Numeral

theorem Text.encode_join (sep : Char) (first : String) (rest : List String) :
    encode (join sep (first :: rest)) =
      encode first ++ rest.flatMap fun s => String.utf8EncodeChar sep ++ encode s := by
  induction rest generalizing first with
  | nil => simp [encode]
  | cons second rest ih =>
    have hrest := ih second
    simp only [encode] at hrest ⊢
    rw [toList_join_cons, List.flatMap_append, List.flatMap_cons, hrest, List.flatMap_cons,
      List.append_assoc]

variable {d : Delimiters}

namespace Peer

structure Plain (d : Delimiters) (p : Peer) : Prop where
  nonempty : p.address ≠ ""
  field : d.fieldChar ∉ p.address.toList

theorem Plain.ofFields? {p : Peer} (h : p.Plain d) :
    Peer.ofFields? p.address p.port.toNat.repr = some p := by
  have haddress : p.address.isEmpty = false := by simpa using h.nonempty
  rw [Peer.ofFields?, haddress, trim_repr, uint16?_repr]
  rfl

theorem field_not_mem (hdigit : d.fieldChar.isDigit = false) {p : Peer}
    (h : d.fieldChar ∉ p.address.toList) : ∀ f ∈ p.fields, d.fieldChar ∉ f.toList := by
  simp only [fields, List.mem_cons, List.not_mem_nil, or_false, forall_eq_or_imp, forall_eq]
  exact ⟨h, not_mem_repr hdigit _⟩

theorem fields_encode (hdigit : d.fieldChar.isDigit = false) {p : Peer}
    (h : d.fieldChar ∉ p.address.toList) : d.fields (p.encode d) = [p.address, p.port.toNat.repr] :=
  Delimiters.fields_joinFields (by simp [fields]) (field_not_mem hdigit h)

end Peer

namespace Roster

/-- How a leader sees a joiner: without an address it is at the one its connection comes from. -/
def seenFrom (remote : Net.Endpoint) (me : Peer) : Peer :=
  { me with address := if me.address.isEmpty then remote.ip.text else me.address }

theorem seenFrom_of_nonempty {me : Peer} (h : me.address ≠ "") (remote : Net.Endpoint) :
    seenFrom remote me = me := by
  have haddress : me.address.isEmpty = false := by simpa using h
  simp [seenFrom, haddress]

theorem joinerIdentity_seen (hd : d.Framing) {me : Peer} (hfield : d.fieldChar ∉ me.address.toList)
    {remote : Net.Endpoint} (hseen : (seenFrom remote me).Plain d) :
    joinerIdentity d (Text.encode (me.encode d)) remote = some (seenFrom remote me) := by
  have hend : d.dropEntryEnd (me.encode d) = me.encode d := by
    refine Text.dropTrailing_eq_self_iff.2 (Text.getLast?_join_ne hd.entryChar_ne_fieldChar ?_)
    rw [Text.toList_join_singleton]
    exact fun hlast => not_mem_repr hd.entry_not_digit _ (List.mem_of_getLast? hlast)
  simp only [joinerIdentity, Text.decode?_encode, Option.map_some, hend,
    Peer.fields_encode hd.field_not_digit hfield]
  exact hseen.ofFields?

theorem joinerIdentity_encode (hd : d.Framing) {me : Peer} (h : me.Plain d)
    (remote : Net.Endpoint) : joinerIdentity d (Text.encode (me.encode d)) remote = some me := by
  have hseen := seenFrom_of_nonempty h.nonempty remote
  rw [joinerIdentity_seen hd h.field (hseen.symm ▸ h), hseen]

namespace JoinAnswer

theorem readPeer_fields {p : Peer} (h : p.Plain d) :
    readPeer p.address p.port.toNat.repr = .ok p := by
  rw [readPeer, h.ofFields?]

theorem readPeers_fields {members : List Peer} (h : ∀ p ∈ members, p.Plain d) :
    readPeers (members.flatMap Peer.fields) = .ok members := by
  induction members with
  | nil => rfl
  | cons p members ih =>
    have hrest := ih fun q hq => h q (List.mem_cons_of_mem p hq)
    simp only [List.flatMap_cons, Peer.fields, List.cons_append, List.nil_append, readPeers,
      readPeer_fields (h p List.mem_cons_self)] at hrest ⊢
    rw [hrest]
    rfl

theorem length_flatMap_fields (members : List Peer) :
    (members.flatMap Peer.fields).length = 2 * members.length := by
  induction members with
  | nil => rfl
  | cons p members ih =>
    rw [List.flatMap_cons, List.length_append, ih, List.length_cons, Peer.fields]
    simp only [List.length_cons, List.length_nil]
    omega

theorem parse_accepted (hdigit : d.fieldChar.isDigit = false)
    (htag : d.fieldChar ∉ acceptedTag.toList) {you : Peer} {members : List Peer}
    (h : ∀ p ∈ you :: members, p.Plain d) :
    parse d (encode d (.accepted you members)) = .ok (.accepted you members) := by
  have hfields : d.fields (encode d (.accepted you members)) =
      acceptedTag :: (you :: members).flatMap Peer.fields := by
    refine Delimiters.fields_joinFields (by simp) ?_
    rw [List.forall_mem_cons]
    refine ⟨htag, fun f hf => ?_⟩
    obtain ⟨p, hp, hf⟩ := List.mem_flatMap.1 hf
    exact Peer.field_not_mem hdigit (h p hp).field f hf
  have heven : ((you :: members).flatMap Peer.fields).length % 2 = 0 := by
    rw [length_flatMap_fields]
    omega
  rw [parse, hfields]
  simp only [ofFields, if_true, heven, readPeers_fields h]
  rfl

theorem length_encode_accepted_le {you : Peer} {members view : List Peer}
    (hnodup : (you :: members).Nodup) (hsub : you :: members ⊆ view) :
    (Text.encode (encode d (.accepted you members))).length ≤
      (Text.encode (d.joinFields (acceptedTag :: view.flatMap Peer.fields))).length := by
  rw [encode, Delimiters.joinFields, Delimiters.joinFields, Text.encode_join, Text.encode_join,
    List.length_append, List.length_append]
  obtain ⟨listed, hperm, hlisted⟩ := hnodup.subperm hsub
  refine Nat.add_le_add_left ?_ _
  rw [← ((hperm.flatMap_right Peer.fields).flatMap_right _).length_eq]
  exact ((hlisted.flatMap Peer.fields).flatMap _).length_le

/-- A leader at an address that reads as the word for being taken in is not found, but nobody else
is found in its place. -/
theorem parse_redirect (hdigit : d.fieldChar.isDigit = false) {leader : Peer}
    (h : leader.Plain d) : parse d (encode d (.redirect leader)) =
      if leader.address = acceptedTag then .error .missingFields else .ok (.redirect leader) := by
  rw [parse, encode, Peer.fields_encode hdigit h.field, ofFields]
  split
  · rfl
  · rw [readPeer_fields h]
    rfl

end JoinAnswer

def joinFrame (d : Delimiters) (me : Peer) : Frame.Request :=
  ⟨Frame.RequestKind.join.code, me.label, Text.encode (me.encode d)⟩

theorem body_joinFrame (d : Delimiters) (me : Peer) :
    (joinFrame d me).body = Text.encode (me.encode d) := rfl

theorem joinRequest_eq (d : Delimiters) (me : Peer) :
    joinRequest d me = (joinFrame d me).encode d := rfl

/-- The peer can be named on the wire: by itself when it asks to join, and by others. -/
structure Named (d : Delimiters) (p : Peer) : Prop where
  plain : p.Plain d
  fits : (joinFrame d p).Fits d

theorem readAnswer_frame {bytes rest : Bytes} {r : Frame.Response}
    (hread : Frame.readResponse d bytes = (.frame r, rest)) (closed : Bool) :
    readAnswer d (.bytes bytes closed) =
      if r.isSuccess then
        match JoinAnswer.parse d r.text with
        | .ok answer => .ok (answer, rest)
        | .error error => .error (.invalidAnswer error)
      else .error (.refused r.text) := by
  simp only [readAnswer, readReply, hread]
  cases hsuccess : r.isSuccess with
  | true =>
    simp only [bind, Except.bind, hsuccess, if_true]
    cases JoinAnswer.parse d r.text <;> rfl
  | false =>
    simp only [bind, Except.bind, hsuccess, Bool.false_eq_true, if_false]
    rfl

section Answers

variable (hd : d.Framing) (closed : Bool)
include hd

theorem readAnswer_encode {r : Frame.Response} (hsize : r.message.length < UInt64.size) :
    readAnswer d (.bytes (r.encode d) closed) =
      if r.isSuccess then
        match JoinAnswer.parse d r.text with
        | .ok answer => .ok (answer, [])
        | .error error => .error (.invalidAnswer error)
      else .error (.refused r.text) := by
  have hread := Frame.readResponse_encode hd hsize []
  rw [List.append_nil] at hread
  exact readAnswer_frame hread closed

theorem readAnswer_success {answer : JoinAnswer}
    (hsize : (Text.encode (answer.encode d)).length < UInt64.size) :
    readAnswer d (.bytes ((Frame.Response.success (answer.encode d)).encode d) closed) =
      match JoinAnswer.parse d (answer.encode d) with
      | .ok answer => .ok (answer, [])
      | .error error => .error (.invalidAnswer error) := by
  have hsuccess : (Frame.Response.success (answer.encode d)).isSuccess = true := rfl
  have htext : (Frame.Response.success (answer.encode d)).text = answer.encode d :=
    Text.decodeLossy_encode _
  rw [readAnswer_encode hd closed hsize, if_pos hsuccess, htext]

theorem readAnswer_serverError {text : String} (hsize : (Text.encode text).length < UInt64.size) :
    readAnswer d (.bytes ((Frame.Response.serverError text).encode d) closed) =
      .error (.refused text) := by
  have hsuccess : (Frame.Response.serverError text).isSuccess = false := rfl
  have htext : (Frame.Response.serverError text).text = text := Text.decodeLossy_encode _
  rw [readAnswer_encode hd closed hsize, if_neg (by simp [hsuccess]), htext]

end Answers

end Roster
end CrawlCluster
