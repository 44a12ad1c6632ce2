import CrawlCluster.Proofs.Network.Joining
import CrawlCluster.Proofs.Roster.Naming

/-!
A leader with everybody who joined it. Main statement: `Team.Meets.joinFirst`, that a newcomer who
knows anybody of the team is taken in by its leader, be it by way of a follower.
-/

set_option autoImplicit false

namespace CrawlCluster

def Net.Endpoint.peer (e : Endpoint) : Peer := { address := e.ip.text, port := e.port }

namespace Network

open Net (Endpoint Ip)
open Roster (JoinAnswer Joined Named join joinFirst joinFrom)
open World

variable {p target : Peer} {bound : Endpoint}

theorem reaches_iff :
    reaches p bound = true ↔ p.port = bound.port ∧ Ip.ofText? p.address = some bound.ip := by
  rw [reaches, Bool.and_eq_true, beq_iff_eq, beq_iff_eq]

theorem named_of_reaches (h : reaches p bound = true) : Named {} p :=
  Roster.named_of_ofText? (reaches_iff.1 h).2

theorem address_of_reaches (h : reaches p bound = true) : p.address ≠ JoinAnswer.acceptedTag := by
  intro htag
  have hnone : Ip.ofText? JoinAnswer.acceptedTag = none := by decide
  have haddress := (reaches_iff.1 h).2
  rw [htag, hnone] at haddress
  cases haddress

theorem peer_of_reaches {other : Endpoint} (h : reaches p bound = true)
    (hother : reaches p other = true) : bound.peer = other.peer := by
  obtain ⟨hport, hip⟩ := reaches_iff.1 h
  obtain ⟨hotherPort, hotherIp⟩ := reaches_iff.1 hother
  have hips : bound.ip = other.ip := Option.some.inj (hip.symm.trans hotherIp)
  rw [Endpoint.peer, Endpoint.peer, ← hport, ← hotherPort, hips]

theorem reaches_peer (bound : Endpoint) : reaches bound.peer bound = true :=
  reaches_iff.2 ⟨rfl, Ip.ofText?_text _⟩

theorem collide_eq_false {other : Endpoint} (h : bound.ip.isUnspecified = false)
    (hother : other.ip.isUnspecified = false) (hpeer : bound.peer ≠ other.peer) :
    collide bound other = false := by
  rw [collide, h, hother, Bool.or_false, Bool.or_false, Bool.eq_false_iff, Ne, Bool.and_eq_true,
    beq_iff_eq, beq_iff_eq]
  rintro ⟨hport, hip⟩
  exact hpeer (by rw [Endpoint.peer, Endpoint.peer, hport, hip])

/-- A node about to be started. -/
structure Launch where
  name : String
  store : String
  parameters : Parameters
  faults : List Fault := []

namespace Launch

def identity (l : Launch) : Peer :=
  Roster.initialIdentity l.parameters.advertise l.parameters.bind

def start [ScanOrder] (l : Launch) (w : World) : Except StartError Unit × World :=
  w.start l.name l.store l.parameters l.faults

/-- A node with the default separators that goes by the address it listens at, and whose store can
be connected to. -/
structure Usual (l : Launch) : Prop where
  delimiters : l.parameters.jobs.delimiters = {}
  specified : l.parameters.bind.ip.isUnspecified = false
  identified : l.identity = l.parameters.bind.peer
  stocked : ∀ fault ∈ l.faults, fault.kind ≠ .connect

def newcomer (l : Launch) : Standing :=
  { name := l.name
    bound := l.parameters.bind
    condition := .running
    place :=
      { delimiters := l.parameters.jobs.delimiters
        role := .attemptingJoin
        me := {}
        active := [] }
    ear := none
    search := none }

end Launch

namespace Standing

/-- A host that is up, goes by the address it listens at and looks for nobody. -/
structure Sound (s : Standing) : Prop where
  running : s.condition = .running
  specified : s.bound.ip.isUnspecified = false
  delimiters : s.place.delimiters = {}
  addressed : s.place.me = s.bound.peer
  idle : s.search = none

theorem Sound.isAt_iff {s : Standing} (h : s.Sound) :
    s.isAt target = true ↔ reaches target s.bound = true := by
  simp only [isAt, h.running, h.specified, beq_self_eq_true, Bool.true_and, Bool.false_eq_true,
    if_false]

def listing (peer : Peer) (socket : Roster.Socket) (s : Standing) : Standing :=
  { s with place := { s.place with active := s.place.active ++ [⟨peer, socket⟩] } }

structure Follows (leader s : Standing) (socket : Roster.Socket) : Prop where
  role : ∃ p, s.place.role = .follower p ∧ reaches p leader.bound = true
  ear : s.ear = some (socket, leader.name)
  active : s.place.active = []

end Standing

/-- A leader and those it lists: they follow it on the connections it has them on. -/
structure Team (leader : Standing) (followers : List Standing) : Prop where
  named : ((leader :: followers).map (·.name)).Nodup
  sound : ∀ s ∈ leader :: followers, s.Sound
  leads : leader.place.role = .leader
  deaf : leader.ear = none
  listed : List.Forall₂ (fun a s => a.peer = s.place.me ∧ leader.Follows s a.socket)
    leader.place.active followers

variable {leader : Standing} {followers : List Standing} {l : Launch}

namespace Team

theorem listed_peer (h : Team leader followers) {a : Roster.ActivePeer}
    (ha : a ∈ leader.place.active) :
    ∃ s ∈ followers, a.peer = s.place.me ∧ leader.Follows s a.socket := by
  obtain ⟨i, hi, rfl⟩ := List.getElem_of_mem ha
  have hi' : i < followers.length := h.listed.length_eq ▸ hi
  exact ⟨followers[i], List.getElem_mem hi', h.listed.get hi hi'⟩

theorem follows (h : Team leader followers) {s : Standing} (hs : s ∈ followers) :
    ∃ socket, leader.Follows s socket := by
  obtain ⟨i, hi, rfl⟩ := List.getElem_of_mem hs
  have hi' : i < leader.place.active.length := h.listed.length_eq ▸ hi
  exact ⟨_, (h.listed.get hi' hi).2⟩

theorem peers (h : Team leader followers) :
    leader.place.active.map (·.peer) = followers.map (·.place.me) := by
  rw [← List.forall₂_eq_eq_eq, List.forall₂_map_left_iff, List.forall₂_map_right_iff]
  exact h.listed.imp fun _ _ listed => listed.1

theorem peer_addressed (h : Team leader followers) {p : Peer}
    (hp : p ∈ leader.place.active.map (·.peer)) : ∃ bound : Endpoint, p = bound.peer := by
  rw [h.peers] at hp
  obtain ⟨s, hs, rfl⟩ := List.mem_map.1 hp
  exact ⟨s.bound, (h.sound s (List.mem_cons_of_mem leader hs)).addressed⟩

theorem calm (h : Team leader followers) : Calm (leader :: followers) where
  named := h.named
  idle s hs := (h.sound s hs).idle
  reached := by
    intro s hs a ha
    rcases List.mem_cons.1 hs with rfl | hs
    · obtain ⟨t, ht, -, hfollows⟩ := h.listed_peer ha
      have ht' := List.mem_cons_of_mem s ht
      exact ⟨t, ht', (h.sound t ht').running, by rw [hfollows.ear, Option.map_some]⟩
    · obtain ⟨socket, hfollows⟩ := h.follows hs
      rw [hfollows.active] at ha
      cases ha
  heard := by
    intro s hs ear hear
    rcases List.mem_cons.1 hs with rfl | hs
    · rw [h.deaf] at hear
      cases hear
    · obtain ⟨socket, hfollows⟩ := h.follows hs
      rw [hfollows.ear] at hear
      cases hear
      exact ⟨leader, List.mem_cons_self, (h.sound _ List.mem_cons_self).running, rfl⟩

end Team

/-- A newcomer beside a team, at an address of its own and under a name of its own. -/
structure Team.Meets (leader : Standing) (followers : List Standing) (l : Launch) : Prop where
  team : Team leader followers
  usual : l.Usual
  fresh : ∀ s ∈ leader :: followers, s.name ≠ l.name ∧ s.place.me ≠ l.identity
  countable : (leader :: followers).length < 2 ^ 54

structure Awaits (leader : Standing) (followers : List Standing) (l : Launch) (w : World) :
    Prop where
  standings : w.standings = leader :: followers ++ [l.newcomer]
  fakes : w.fakes = []

/-- The leader has taken the newcomer in, on the connection made last. -/
structure TakenIn (leader : Standing) (followers : List Standing) (l : Launch) (joined : Joined)
    (w : World) : Prop where
  found : reaches joined.leader leader.bound = true
  you : joined.you = l.identity
  rest : joined.rest = []
  standings : w.standings =
    leader.listing l.identity w.latest.socket :: followers ++ [l.newcomer]
  fakes : w.fakes = []
  heard : w.latest.leader = leader.name

theorem at?_of_find {w : World} {s : Standing}
    (h : w.standings.find? (·.isAt target) = some s) :
    ∃ host, w.at? target = some host ∧ host.standing = s := by
  rw [← map_at?] at h
  exact Option.map_eq_some_iff.1 h

theorem map_put_of_ne {name : String} {s : Standing} {standings : List Standing}
    (h : ∀ t ∈ standings, t.name ≠ name) :
    (standings.map fun t => if t.name = name then s else t) = standings :=
  (List.map_congr_left fun t ht => if_neg (h t ht)).trans (List.map_id' _)

namespace Team.Meets

variable {w : World}

theorem named (h : Meets leader followers l) :
    ((leader :: followers ++ [l.newcomer]).map (·.name)).Nodup := by
  rw [List.map_append, List.map_singleton]
  refine h.team.named.append (List.nodup_singleton _) (List.disjoint_singleton.2 fun hmem => ?_)
  obtain ⟨s, hs, hname⟩ := List.mem_map.1 hmem
  exact (h.fresh s hs).1 hname

theorem joiner (h : Meets leader followers l) : Named {} l.identity := by
  rw [h.usual.identified]
  exact named_of_reaches (reaches_peer _)

/-- No address leads both to the newcomer and to somebody of the team. -/
theorem ne_identity (h : Meets leader followers l) {s : Standing} (hs : s ∈ leader :: followers)
    (hreach : reaches p s.bound = true) : p ≠ l.identity := by
  rintro rfl
  refine (h.fresh s hs).2 ?_
  rw [h.usual.identified] at hreach
  rw [(h.team.sound s hs).addressed, peer_of_reaches hreach (reaches_peer _), h.usual.identified]

theorem delimiters (h : Meets leader followers l) {host : Host}
    (hs : host.standing ∈ leader :: followers ++ [l.newcomer]) : host.node.delimiters = {} := by
  rcases List.mem_append.1 hs with hs | hs
  · exact (h.team.sound _ hs).delimiters
  · have hplace := congrArg (·.place.delimiters) (List.mem_singleton.1 hs)
    exact hplace.trans h.usual.delimiters

theorem unlisted (h : Meets leader followers l) :
    l.identity ∉ leader.place.active.map (·.peer) := by
  rw [h.team.peers]
  intro hmem
  obtain ⟨s, hs, hme⟩ := List.mem_map.1 hmem
  exact (h.fresh s (List.mem_cons_of_mem leader hs)).2 hme

theorem tellable (h : Meets leader followers l) :
    (Text.encode ((JoinAnswer.accepted l.identity
      ((leader.place.active.map (·.peer)).filter (· ≠ l.identity))).encode {})).length <
        UInt64.size := by
  have hcount : (l.identity :: (leader.place.active.map (·.peer)).filter
      (· ≠ l.identity)).length < 2 ^ 54 := by
    refine Nat.lt_of_le_of_lt (Nat.succ_le_succ (List.length_filter_le ..)) ?_
    rw [List.length_map, h.team.listed.length_eq]
    exact h.countable
  refine JoinAnswer.length_encode_accepted_lt (fun p hp => ?_) hcount
  have haddress : ∃ bound : Endpoint, p = bound.peer := by
    rcases List.mem_cons.1 hp with rfl | hp
    · exact ⟨_, h.usual.identified⟩
    · exact h.team.peer_addressed (List.mem_filter.1 hp).1
  obtain ⟨bound, rfl⟩ := haddress
  exact ⟨_, (reaches_iff.1 (reaches_peer bound)).2⟩

theorem map_put_leader (h : Meets leader followers l) (s : Standing) :
    ((leader :: followers ++ [l.newcomer]).map fun t => if t.name = leader.name then s else t) =
      s :: followers ++ [l.newcomer] := by
  have hnodup := h.named
  rw [List.cons_append, List.map_cons, List.nodup_cons] at hnodup
  have hothers : ∀ t ∈ followers ++ [l.newcomer], t.name ≠ leader.name := by
    intro t ht hname
    exact hnodup.1 (List.mem_map.2 ⟨t, ht, hname⟩)
  rw [List.cons_append, List.map_cons, if_pos rfl, map_put_of_ne hothers, List.cons_append]

theorem map_put_newcomer (h : Meets leader followers l) (peer : Peer) (socket : Roster.Socket)
    (s : Standing) :
    ((leader.listing peer socket :: followers ++ [l.newcomer]).map fun t =>
      if t.name = l.name then s else t) = leader.listing peer socket :: followers ++ [s] := by
  have hnewcomer : l.newcomer.name = l.name := rfl
  rw [List.map_append, List.map_singleton, if_pos hnewcomer, map_put_of_ne]
  intro t ht
  rcases List.mem_cons.1 ht with rfl | ht
  · exact (h.fresh leader List.mem_cons_self).1
  · exact (h.fresh t (List.mem_cons_of_mem leader ht)).1

variable (depth : Nat)

variable [ScanOrder]

/-- The leader takes the newcomer in. -/
theorem taken (h : Meets leader followers l) (hw : Awaits leader followers l w)
    (hreach : reaches target leader.bound = true) (dials : Nat) :
    ∃ joined after, joinFrom (deep depth) {} l.identity (dials + 1) target w = (.ok joined, after) ∧
      TakenIn leader followers l joined after := by
  have hsound := h.team.sound _ List.mem_cons_self
  have hfind : w.standings.find? (·.isAt target) = some leader := by
    rw [hw.standings, List.cons_append, List.find?_cons_of_pos (hsound.isAt_iff.2 hreach)]
  obtain ⟨host, hat, rfl⟩ := at?_of_find hfind
  have hplain (p : Peer) (hp : p ∈ host.node.members.followers) : p.Plain {} := by
    obtain ⟨bound, rfl⟩ := h.team.peer_addressed hp
    exact (named_of_reaches (reaches_peer bound)).plain
  obtain ⟨after, hjoin, hstandings, hfakes, hheard⟩ := joinFrom_leader depth
    Delimiters.framing_default hat hsound.delimiters h.joiner (by decide) h.team.leads hplain
    h.tellable dials
  refine ⟨_, after, hjoin, hreach, rfl, rfl, ?_, hfakes.trans hw.fakes, hheard⟩
  rw [hstandings, hw.standings, Roster.putActive_of_not_mem h.unlisted]
  exact h.map_put_leader _

/-- One attempt ends with the leader, unless nobody of the team is there. -/
theorem attempt (h : Meets leader followers l) (hw : Awaits leader followers l w)
    (target : Peer) :
    (∃ joined after, join (deep depth) {} l.identity target w = (.ok joined, after) ∧
      TakenIn leader followers l joined after) ∨
    (∀ s ∈ leader :: followers, s.isAt target ≠ true) ∧
      ∃ error after, join (deep depth) {} l.identity target w = (.error error, after) ∧
        Awaits leader followers l after := by
  have hnamed := h.named
  rw [← hw.standings] at hnamed
  have hlook := congrArg (List.find? (·.isAt target)) hw.standings
  rw [List.find?_append] at hlook
  cases hfind : (leader :: followers).find? (·.isAt target) with
  | some s =>
    refine .inl ?_
    rw [hfind, Option.some_or] at hlook
    have hs := List.mem_of_find?_eq_some hfind
    have hreach := (h.team.sound s hs).isAt_iff.1 (List.find?_some hfind)
    rcases List.mem_cons.1 hs with rfl | hs
    · exact h.taken depth hw hreach 7
    · obtain ⟨socket, hfollows⟩ := h.team.follows hs
      obtain ⟨p, hrole, hp⟩ := hfollows.role
      obtain ⟨host, hat, rfl⟩ := at?_of_find hlook
      obtain ⟨after, halike, hjoin⟩ := joinFrom_follower depth Delimiters.framing_default hat
        (h.delimiters (by simp [hs])) h.joiner hnamed (named_of_reaches hp) hrole
        (address_of_reaches hp) (h.ne_identity List.mem_cons_self hp) 7
      rw [join, Roster.maxDials, hjoin]
      exact h.taken depth ⟨halike.standings.trans hw.standings, halike.fakes.trans hw.fakes⟩ hp 6
  | none =>
    refine .inr ⟨List.find?_eq_none.1 hfind, ?_⟩
    rw [hfind, Option.none_or] at hlook
    -- the newcomer listens already, so it may have dialled itself
    by_cases hself : l.newcomer.isAt target = true
    · rw [List.find?_cons_of_pos hself] at hlook
      obtain ⟨host, hat, hstanding⟩ := at?_of_find hlook
      obtain ⟨after, halike, hjoin⟩ := joinFrom_unready depth Delimiters.framing_default hat
        (h.delimiters (by simp [hstanding])) h.joiner hnamed
        (congrArg (·.place.role) hstanding) 7
      exact ⟨_, after, hjoin, halike.standings.trans hw.standings, halike.fakes.trans hw.fakes⟩
    · rw [List.find?_cons_of_neg hself, List.find?_nil, ← map_at?, Option.map_eq_none_iff] at hlook
      refine ⟨.unreachable, w, ?_, hw⟩
      rw [join, Roster.maxDials, joinFrom, exchange_nobody hlook hw.fakes]
      rfl

/-- A newcomer who knows anybody of the team is taken in, whoever else it asks before. -/
theorem joinFirst (h : Meets leader followers l) (hw : Awaits leader followers l w)
    {seeds : List Peer}
    (hknows : ∃ seed ∈ seeds, ∃ s ∈ leader :: followers, s.isAt seed = true) :
    ∃ joined after, Roster.joinFirst (deep depth) {} l.identity seeds w = (some joined, after) ∧
      TakenIn leader followers l joined after := by
  induction seeds generalizing w with
  | nil =>
    obtain ⟨seed, hseed, -⟩ := hknows
    cases hseed
  | cons target seeds ih =>
    rcases h.attempt depth hw target with ⟨joined, after, hjoin, htaken⟩ |
      ⟨hnobody, error, after, hjoin, hafter⟩
    · exact ⟨joined, after, by simp only [Roster.joinFirst, hjoin], htaken⟩
    · obtain ⟨seed, hseed, s, hs, hat⟩ := hknows
      have hlater : seed ∈ seeds := by
        rcases List.mem_cons.1 hseed with rfl | hseed
        · exact absurd hat (hnobody s hs)
        · exact hseed
      obtain ⟨joined, last, hfirst, htaken⟩ := ih hafter ⟨seed, hlater, s, hs, hat⟩
      refine ⟨joined, last, ?_, htaken⟩
      simp only [Roster.joinFirst, hjoin]
      exact hfirst

end Team.Meets
end Network
end CrawlCluster
