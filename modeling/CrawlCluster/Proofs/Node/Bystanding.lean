import CrawlCluster.Proofs.Node.Connections
import CrawlCluster.Proofs.Stats.Recording

set_option autoImplicit false

namespace CrawlCluster

namespace Stats

theorem requestCount_recordAll_of_ne {client : String} {kind : Frame.RequestKind}
    {events : List Event} (h : ∀ e ∈ events, ∀ node, e ≠ .request node client kind)
    {s left : Stats} (hleft : s.recordAll events = some left) :
    left.requestCount client kind = s.requestCount client kind := by
  have hnone : events.countP (·.isRequest client kind) = 0 := by
    refine List.countP_eq_zero.2 fun e he hrequest => ?_
    obtain ⟨node, rfl⟩ := Event.isRequest_eq_true.1 hrequest
    exact h _ he node rfl
  have hshown := shown_recordAll hleft (.requests client kind)
  simp only [Event.amount, sum_map_toNat, hnone, Nat.add_zero] at hshown
  exact UInt64.toNat_inj.1 hshown

end Stats

namespace Node

open Coordinator (Site)
open CrawlCluster.Frame (HeaderError RequestKind)

variable {σ ν : Type} {link : Link ν} {site : Site σ} {conn : Connection} {here : Placed σ ν}

def noted? (me : Peer) : Except HeaderError Frame.Request → Option Event
  | .error _ => none
  | .ok req =>
    ((RequestKind.ofCode? req.code).filter fun kind => !kind.leaderOnly).map
      (.request me req.client ·)

theorem noted?_eq_some {me : Peer} {received : Except HeaderError Frame.Request} {e : Event}
    (h : noted? me received = some e) :
    ∃ client kind, e = .request me client kind ∧ kind.leaderOnly = false := by
  cases received with
  | error error => cases h
  | ok req =>
    obtain ⟨kind, hkind, rfl⟩ := Option.map_eq_some_iff.1 h
    exact ⟨req.client, kind, rfl, by simpa using (Option.filter_eq_some_iff.1 hkind).2⟩

def noting (events : List Event) (node : Node σ) : Node σ :=
  { node with desk := { node.desk with events := node.desk.events ++ events } }

theorem noting_nil (node : Node σ) : node.noting [] = node := by
  simp [noting]

theorem noting_noting (before after : List Event) (node : Node σ) :
    (node.noting before).noting after = node.noting (before ++ after) := by
  simp [noting]

theorem takeIn_bystander (conn : Connection) (body : Bytes) {node : Node σ}
    (h : node.members.role ≠ .leader) : (node.takeIn conn body).2 = node := by
  unfold takeIn
  simp only
  split
  · rfl
  · split
    · next hlead => exact absurd hlead h
    · rfl
    · rfl
    · rfl

theorem handle_bystander (site : Site σ) (conn : Connection) {kind : RequestKind}
    (hkind : kind.leaderOnly = false) (req : Frame.Request) {node : Node σ}
    (h : node.members.role ≠ .leader) :
    (node.handle site conn kind req).2 =
      node.noting [.request node.members.me req.client kind] := by
  cases kind with
  | join =>
    have hcounted : (node.record (.request node.members.me req.client .join)).members.role ≠
        .leader := h
    exact takeIn_bystander conn req.body hcounted
  | heartbeat => rfl
  | _ => contradiction

/-- Job requests and requests for the list of members go to the leader, if one is known, and that
is all. -/
theorem respond_bystander (link : Link ν) (site : Site σ) (conn : Connection)
    (h : here.node.members.role ≠ .leader) (received : Except HeaderError Frame.Request) :
    (respond link site conn here received).2.node =
      here.node.noting (noted? here.node.members.me received).toList := by
  cases received with
  | error error => exact (noting_nil here.node).symm
  | ok req =>
    have hidle : here.node.members.isLeader = false := by
      simp [Roster.State.isLeader, h]
    cases hkind : RequestKind.ofCode? req.code with
    | none =>
      simp only [respond, dispatch, noted?, hkind]
      exact (noting_nil here.node).symm
    | some kind =>
      cases honly : kind.leaderOnly with
      | true =>
        simp only [respond, dispatch, noted?, hkind, honly, hidle, Bool.not_false, Bool.and_self,
          if_true, Option.filter_some, Bool.not_true, Bool.false_eq_true, if_false]
        exact (noting_nil here.node).symm
      | false =>
        simp only [respond, dispatch, noted?, hkind, honly, Bool.false_and, Bool.false_eq_true,
          if_false, Option.filter_some, Bool.not_false, if_true]
        exact handle_bystander site conn honly req h

theorem respondAll_bystander (h : here.node.members.role ≠ .leader)
    (received : List (Except HeaderError Frame.Request)) :
    (respondAll link site conn received here).2.node =
      here.node.noting (received.filterMap (noted? here.node.members.me)) := by
  induction received generalizing here with
  | nil => exact (noting_nil here.node).symm
  | cons first received ih =>
    have hfirst := respond_bystander link site conn h first
    have hmembers : (respond link site conn here first).2.node.members = here.node.members := by
      rw [hfirst]
      rfl
    have hstill : (respond link site conn here first).2.node.members.role ≠ .leader := by
      rwa [hmembers]
    have hrest := ih hstill
    rw [hmembers, hfirst, noting_noting] at hrest
    refine hrest.trans (congrArg here.node.noting ?_)
    cases hnoted : noted? here.node.members.me first with
    | none => rw [List.filterMap_cons_none hnoted]; rfl
    | some e => rw [List.filterMap_cons_some hnoted]; rfl

/-- A stretch of what one connection brings. Other connections may come in between, and then the
same one again. -/
structure Visit (σ : Type) where
  site : Site σ
  conn : Connection
  bytes : Bytes

def serveEach (link : Link ν) : List (Visit σ) → Placed σ ν → List Bytes × Placed σ ν
  | [], here => ([], here)
  | visit :: visits, here =>
    let (answer, here) := serve link visit.site visit.conn visit.bytes here
    let (answers, here) := serveEach link visits here
    (answer :: answers, here)

/-- All that is recorded of some visits, by a node between these separators. -/
def notedOf (d : Delimiters) (me : Peer) (visits : List (Visit σ)) : List Event :=
  visits.flatMap fun visit => (Frame.readRequests d visit.bytes).filterMap (noted? me)

theorem serveEach_bystander (h : here.node.members.role ≠ .leader) (visits : List (Visit σ)) :
    (serveEach link visits here).2.node =
      here.node.noting (notedOf here.node.delimiters here.node.members.me visits) := by
  induction visits generalizing here with
  | nil => exact (noting_nil here.node).symm
  | cons visit visits ih =>
    have hserved : (serve link visit.site visit.conn visit.bytes here).2.node = _ :=
      respondAll_bystander h (Frame.readRequests here.node.delimiters visit.bytes)
    have hstill : (serve link visit.site visit.conn visit.bytes here).2.node.members.role ≠
        .leader := by
      rw [hserved]
      exact h
    have hrest := ih hstill
    rw [hserved, noting_noting] at hrest
    exact hrest

/-- A node that does not lead, whatever it is sent and whatever the others answer it: its store and
all its store calls, its directive and its crawl id, its role, its name and its lists are as they
were. It counts the requests to join and the heartbeats that it read, and no other request. -/
theorem bystander_untouched (link : Link ν) (visits : List (Visit σ)) {here : Placed σ ν}
    (h : here.node.members.role ≠ .leader) (s : Stats) :
    let left := (serveEach link visits here).2.node
    let noted := notedOf here.node.delimiters here.node.members.me visits
    left = { here.node with
        desk := { here.node.desk with events := here.node.desk.events ++ noted } } ∧
      (∀ e ∈ noted, ∃ client kind,
        e = .request here.node.members.me client kind ∧ kind.leaderOnly = false) ∧
      ∀ client (kind : RequestKind), kind.leaderOnly = true →
        ∀ counts, s.recordAll left.desk.events = some counts →
          ∃ before, s.recordAll here.node.desk.events = some before ∧
            counts.requestCount client kind = before.requestCount client kind := by
  intro left noted
  have hleft : left = here.node.noting noted := serveEach_bystander h visits
  have hnoted : ∀ e ∈ noted, ∃ client kind,
      e = .request here.node.members.me client kind ∧ kind.leaderOnly = false := by
    intro e he
    obtain ⟨visit, -, he⟩ := List.mem_flatMap.1 he
    obtain ⟨received, -, he⟩ := List.mem_filterMap.1 he
    exact noted?_eq_some he
  refine ⟨hleft, hnoted, fun client kind hkind counts hcounts => ?_⟩
  have hother : ∀ e ∈ noted, ∀ node, e ≠ .request node client kind := by
    intro e he node hrequest
    obtain ⟨_, kind', rfl, hkind'⟩ := hnoted e he
    cases hrequest
    simp [hkind'] at hkind
  have hevents : left.desk.events = here.node.desk.events ++ noted := by
    rw [hleft]
    rfl
  rw [hevents, Stats.recordAll_append] at hcounts
  obtain ⟨before, hbefore, hmore⟩ := Option.bind_eq_some_iff.1 hcounts
  exact ⟨before, hbefore, Stats.requestCount_recordAll_of_ne hother hmore⟩

def generous : Link Unit :=
  ⟨fun _ _ net => (.bytes (Text.encode "200?27\nSpider?job-0?https://x?5?60") true, net)⟩

def retired : Node Store where
  members := { role := .follower ⟨"x", 1⟩, me := ⟨"y", 2⟩, view := [⟨"z", 3⟩, ⟨"y", 2⟩] }
  desk := {
    store := { queue := [⟨0, { id := "job-0", url := "https://x" }⟩], nextSeq := 1 }
    outstanding := some { crawlId := 3, token := 9 }
    crawlId := 3 }

def openSite : Site Store := { backend := Store.backend, retry := {}, now := 5 }

def asker (name : String) (bytes : String) : Visit Store where
  site := openSite
  conn := { remote := { ip := Net.Ip.loopback, port := 40000 }, socket := ⟨name⟩ }
  bytes := Text.encode bytes

def askedInTurn : List (Visit Store) :=
  [asker "a" "conn?v?3\nv?4", asker "b" "gtjb?w?0\ngtip?w\nupjb?w?12\nhttps://x?1\n",
    asker "a" "hrtb?v?7\n8?R?z?3"]

theorem bystander_untouched_asked :
    retired.members.role ≠ .leader ∧
      (serveEach generous askedInTurn ⟨retired, ()⟩).1 = [
        Text.encode "200?3\nx?1",
        Text.encode ("200?27\nSpider?job-0?https://x?5?60" ++ "400?17\nHeader too short." ++
          "200?27\nSpider?job-0?https://x?5?60"),
        Text.encode "400?23\nHeartbeat not expected."] ∧
      (serveEach generous askedInTurn ⟨retired, ()⟩).2.node = retired.noting
        [.request ⟨"y", 2⟩ "v" .join, .request ⟨"y", 2⟩ "v" .heartbeat] := by
  have hrole : (⟨retired, ()⟩ : Placed Store Unit).node.members.role ≠ .leader := by decide
  have hnoted : notedOf {} ⟨"y", 2⟩ askedInTurn =
      [.request ⟨"y", 2⟩ "v" .join, .request ⟨"y", 2⟩ "v" .heartbeat] := by decide +kernel
  have hleft := (bystander_untouched generous askedInTurn hrole {}).1
  refine ⟨hrole, by decide +kernel, hleft.trans ?_⟩
  exact congrArg (retired.noting ·) hnoted

end Node
end CrawlCluster
