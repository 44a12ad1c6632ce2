import CrawlCluster.Node.Life
import CrawlCluster.Proofs.Frame.Parts
import CrawlCluster.Proofs.Roster.Heartbeats
import CrawlCluster.Proofs.Roster.Replay

set_option autoImplicit false

namespace CrawlCluster.Node

open Roster (Heartbeat)

variable {σ : Type} {d : Delimiters}

section Frames

variable {received : Except Frame.HeaderError Frame.Request} {beat : Heartbeat}

inductive Brings (d : Delimiters) : Except Frame.HeaderError Frame.Request → Heartbeat → Prop where
  | heartbeat {req : Frame.Request} {text : String} {beat : Heartbeat}
    (hcode : req.code = Frame.RequestKind.heartbeat.code)
    (hbody : Text.decode? req.body = some text) (hspelt : Heartbeat.Spelt d text beat) :
      Brings d (.ok req) beat

/-- What a follower passes over. -/
inductive Void (d : Delimiters) : Except Frame.HeaderError Frame.Request → Prop where
  | badHeader (error : Frame.HeaderError) : Void d (.error error)
  | otherCode {req : Frame.Request} (hcode : req.code ≠ Frame.RequestKind.heartbeat.code) :
      Void d (.ok req)
  | notUtf8 {req : Frame.Request} (hbody : Text.decode? req.body = none) : Void d (.ok req)
  | flawed {req : Frame.Request} {text : String} (hbody : Text.decode? req.body = some text)
    (hflawed : Heartbeat.Flawed d text) : Void d (.ok req)

def heartbeat? (d : Delimiters) : Except Frame.HeaderError Frame.Request → Option Heartbeat
  | .error _ => none
  | .ok req => readHeartbeat? d req

theorem Brings.read (h : Brings d received beat) : heartbeat? d received = some beat := by
  cases h with
  | heartbeat hcode hbody hspelt =>
    rw [heartbeat?, readHeartbeat?, if_pos hcode, hbody, Option.bind_some, hspelt.parse]
    rfl

theorem Void.read (h : Void d received) : heartbeat? d received = none := by
  cases h with
  | badHeader error => rfl
  | otherCode hcode => exact if_neg hcode
  | notUtf8 hbody =>
    rw [heartbeat?, readHeartbeat?, hbody]
    exact ite_self none
  | flawed hbody hflawed =>
    obtain ⟨error, herror⟩ := hflawed.parse
    rw [heartbeat?, readHeartbeat?, hbody, Option.bind_some, herror]
    exact ite_self none

theorem brings_or_void (d : Delimiters) (received : Except Frame.HeaderError Frame.Request) :
    (∃ beat, Brings d received beat) ∨ Void d received := by
  cases received with
  | error error => exact .inr (.badHeader error)
  | ok req =>
    by_cases hcode : req.code = Frame.RequestKind.heartbeat.code
    · cases hbody : Text.decode? req.body with
      | none => exact .inr (.notUtf8 hbody)
      | some text =>
        cases hparse : Heartbeat.parse d text with
        | ok beat =>
          exact .inl ⟨beat, .heartbeat hcode hbody (Heartbeat.parse_eq_ok_iff.1 hparse)⟩
        | error error =>
          exact .inr (.flawed hbody (Heartbeat.parse_eq_error_iff.1 ⟨error, hparse⟩))
    · exact .inr (.otherCode hcode)

end Frames

variable {bytes : Bytes} {beats : List Heartbeat}

/-- The heartbeats of a stream, in order. -/
inductive Heard (d : Delimiters) : Bytes → List Heartbeat → Prop where
  | ended {tail : Bytes} (htail : Frame.Truncated d tail) : Heard d tail []
  | heartbeat {part : Frame.Part} {rest : Bytes} {beat : Heartbeat} {beats : List Heartbeat}
    (hpart : part.Complete d) (hbrings : Brings d part.received beat)
    (onward : Heard d rest beats) : Heard d (part.bytes ++ rest) (beat :: beats)
  | nothing {part : Frame.Part} {rest : Bytes} {beats : List Heartbeat}
    (hpart : part.Complete d) (hvoid : Void d part.received) (onward : Heard d rest beats) :
      Heard d (part.bytes ++ rest) beats

theorem Heard.read (h : Heard d bytes beats) :
    (Frame.readRequests d bytes).filterMap (heartbeat? d) = beats := by
  induction h with
  | ended htail => rw [Frame.readRequests, Frame.takeRequests_ended htail.ended, List.filterMap_nil]
  | heartbeat hpart hbrings onward ih =>
    rw [hpart.readRequests, List.filterMap_cons_some hbrings.read, ih]
  | nothing hpart hvoid onward ih =>
    rw [hpart.readRequests, List.filterMap_cons_none hvoid.read, ih]

theorem exists_heard (d : Delimiters) (bytes : Bytes) : ∃ beats, Heard d bytes beats := by
  obtain ⟨parts, tail, rfl, hparts, htail⟩ := Frame.Part.exists_parts d bytes
  induction parts with
  | nil => exact ⟨[], .ended htail⟩
  | cons part parts ih =>
    obtain ⟨hpart, hparts⟩ := List.forall_mem_cons.1 hparts
    obtain ⟨beats, hbeats⟩ := ih hparts
    rw [List.flatMap_cons, List.append_assoc]
    rcases brings_or_void d part.received with ⟨beat, hbrings⟩ | hvoid
    · exact ⟨beat :: beats, .heartbeat hpart hbrings hbeats⟩
    · exact ⟨beats, .nothing hpart hvoid hbeats⟩

def informed (beats : List Heartbeat) (node : Node σ) : Node σ :=
  { node with
    desk := { node.desk with
      crawlId := (beats.getLast?.map (·.crawlId)).getD node.desk.crawlId }
    members := { node.members with
      view := Roster.replay (beats.flatMap (·.changes)) node.members.view } }

theorem informed_cons (beat : Heartbeat) (beats : List Heartbeat) (node : Node σ) :
    node.informed (beat :: beats) = (node.applyHeartbeat beat).informed beats := by
  have hcrawlId : (((beat :: beats).getLast?.map (·.crawlId)).getD node.desk.crawlId) =
      (beats.getLast?.map (·.crawlId)).getD beat.crawlId := by
    rw [List.getLast?_cons]
    cases beats.getLast? <;> rfl
  simp only [informed, applyHeartbeat, hcrawlId, Roster.applyAll_eq, List.flatMap_cons,
    Roster.replay_append]

theorem hear_eq (received : Except Frame.HeaderError Frame.Request) (node : Node σ) :
    node.hear received =
      ((heartbeat? node.delimiters received).elim node fun beat => node.applyHeartbeat beat) := by
  cases received with
  | error error => rfl
  | ok req =>
    rw [hear, heartbeat?]
    cases readHeartbeat? node.delimiters req <;> rfl

theorem foldl_hear (received : List (Except Frame.HeaderError Frame.Request)) (node : Node σ) :
    received.foldl hear node = node.informed (received.filterMap (heartbeat? node.delimiters)) := by
  induction received generalizing node with
  | nil => rfl
  | cons first received ih =>
    rw [List.foldl_cons, hear_eq]
    cases hfirst : heartbeat? node.delimiters first with
    | none => rw [List.filterMap_cons_none hfirst, Option.elim_none, ih]
    | some beat =>
      rw [List.filterMap_cons_some hfirst, informed_cons, Option.elim_some, ih]
      rfl

theorem listen_eq (bytes : Bytes) (node : Node σ) :
    node.listen bytes = node.informed
      ((Frame.readRequests node.delimiters bytes).filterMap (heartbeat? node.delimiters)) :=
  foldl_hear ..

/-- What comes from the leader, to the end of the connection, holds one sequence of heartbeats. The
members known are those known before with the changes of all of these made in order, the crawl id
is that of the last, if there is any, and nothing else of the node is touched. A rejected header, a
frame with another code, a body that is not UTF-8, and a heartbeat with a single field that is
wrong make no difference anywhere in a stream. -/
theorem listening_folds_heartbeats (node : Node σ) (bytes : Bytes) :
    (∃! beats, Heard node.delimiters bytes beats) ∧
      (∀ beats, Heard node.delimiters bytes beats → node.listen bytes = { node with
        members := { node.members with
          view := (beats.flatMap (·.changes)).foldl Roster.Change.applyTo node.members.view }
        desk := { node.desk with
          crawlId := (beats.getLast?.map (·.crawlId)).getD node.desk.crawlId } }) ∧
      ∀ (front : List Frame.Part) (part : Frame.Part) (back : Bytes),
        (∀ other ∈ front, other.Complete node.delimiters) → part.Complete node.delimiters →
        Void node.delimiters part.received →
          node.listen (front.flatMap (·.bytes) ++ (part.bytes ++ back)) =
            node.listen (front.flatMap (·.bytes) ++ back) := by
  refine ⟨?_, fun beats hbeats => ?_, fun front part back hfront hpart hvoid => ?_⟩
  · obtain ⟨beats, hbeats⟩ := exists_heard node.delimiters bytes
    exact ⟨beats, hbeats, fun others hothers => hothers.read.symm.trans hbeats.read⟩
  · rw [listen_eq, hbeats.read]
    rfl
  · rw [listen_eq, listen_eq, Frame.Part.readRequests_append hfront, hpart.readRequests,
      Frame.Part.readRequests_append hfront, List.filterMap_append, List.filterMap_append,
      List.filterMap_cons_none hvoid.read]

def fromLeader (code text : String) : Frame.Request := ⟨code, "l:1", Text.encode text⟩

theorem complete_fromLeader {code text : String} (h : (fromLeader code text).Fits {}) :
    Frame.Part.Complete {} ⟨(fromLeader code text).encode {}, .ok (fromLeader code text)⟩ :=
  Frame.Part.complete_encode Delimiters.framing_default h

def halfSpelt : Frame.Part :=
  ⟨(fromLeader "hrtb" "9?R?ant?1?A?cat?x").encode {}, .ok (fromLeader "hrtb" "9?R?ant?1?A?cat?x")⟩

theorem complete_halfSpelt : halfSpelt.Complete {} := complete_fromLeader (by decide +kernel)

theorem void_halfSpelt : Void {} halfSpelt.received :=
  .flawed (Text.decode?_encode _)
    (@Heartbeat.Flawed.change _ _ "9" "A" "cat" "x" ["R", "ant", "1"] [] (by decide +kernel) rfl
      (.port (by decide +kernel)))

def mixed : Bytes :=
  (fromLeader "hrtb" "7?A?ant?1?A?bee?2").encode {} ++ (Text.encode "hrtb" ++ [10] ++
    ((fromLeader "gtip" "8?R?ant?1").encode {} ++ (Text.encode "hrtb?l:1?2" ++ 10 :: [57, 255] ++
      (halfSpelt.bytes ++ ((fromLeader "hrtb" "10?R?bee?2\n").encode {} ++
        (Text.encode "hrtb?l:1?10" ++ 10 :: Text.encode "11?R?ant?"))))))

theorem heard_mixed :
    Heard {} mixed [⟨7, [.added ⟨"ant", 1⟩, .added ⟨"bee", 2⟩]⟩, ⟨10, [.removed ⟨"bee", 2⟩]⟩] := by
  have hseven : Heartbeat.Spelt {} "7?A?ant?1?A?bee?2"
      ⟨7, [.added ⟨"ant", 1⟩, .added ⟨"bee", 2⟩]⟩ :=
    @Heartbeat.Spelt.fields _ _ "7" ["A", "ant", "1", "A", "bee", "2"] _ _ (by decide +kernel)
      (by decide +kernel) (.cons (.added (by decide) (by decide +kernel))
        (.cons (.added (by decide) (by decide +kernel)) .nil))
  have hten : Heartbeat.Spelt {} "10?R?bee?2\n" ⟨10, [.removed ⟨"bee", 2⟩]⟩ :=
    @Heartbeat.Spelt.fields _ _ "10" ["R", "bee", "2"] _ _ (by decide +kernel)
      (by decide +kernel) (.cons (.removed (by decide) (by decide +kernel)) .nil)
  have hshort : Frame.Part.Complete {} ⟨Text.encode "hrtb" ++ [10], .error .tooShort⟩ :=
    .rejected (by decide +kernel) (by decide +kernel)
  have hbytes : Frame.Part.Complete {}
      ⟨Text.encode "hrtb?l:1?2" ++ 10 :: [57, 255], .ok ⟨"hrtb", "l:1", [57, 255]⟩⟩ :=
    @Frame.Part.Complete.frame _ _ _ ⟨"hrtb", "l:1", 2⟩ (by decide +kernel) (by decide +kernel) rfl
  have htail : Frame.Truncated {} (Text.encode "hrtb?l:1?10" ++ 10 :: Text.encode "11?R?ant?") :=
    @Frame.Truncated.payload _ _ _ ⟨"hrtb", "l:1", 10⟩ (by decide +kernel) (by decide +kernel)
      (by decide +kernel)
  refine .heartbeat (complete_fromLeader (by decide +kernel))
    (.heartbeat rfl (Text.decode?_encode _) hseven) (.nothing hshort (.badHeader _) ?_)
  refine .nothing (complete_fromLeader (by decide +kernel)) (.otherCode (by decide)) ?_
  refine .nothing hbytes (.notUtf8 (by decide +kernel)) ?_
  refine .nothing complete_halfSpelt void_halfSpelt ?_
  exact .heartbeat (complete_fromLeader (by decide +kernel))
    (.heartbeat rfl (Text.decode?_encode _) hten) (.ended htail)

theorem listening_folds_heartbeats_mixed :
    let follower : Node Unit :=
      { members := { role := .follower ⟨"l", 1⟩, me := ⟨"cat", 3⟩, view := [⟨"cat", 3⟩] }
        desk := { store := (), crawlId := 4 } }
    follower.listen mixed = { follower with
      members := { follower.members with view := [⟨"cat", 3⟩, ⟨"ant", 1⟩] }
      desk := { follower.desk with crawlId := 10 } } ∧
      follower.listen (halfSpelt.bytes ++ mixed) = follower.listen mixed := by
  intro follower
  obtain ⟨-, hlisten, hvoid⟩ := listening_folds_heartbeats follower mixed
  exact ⟨hlisten _ heard_mixed,
    hvoid [] halfSpelt mixed (by simp) complete_halfSpelt void_halfSpelt⟩

end CrawlCluster.Node
