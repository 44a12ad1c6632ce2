import CrawlCluster.Proofs.Network.Starting
import CrawlCluster.Proofs.Roster.Routing

set_option autoImplicit false

namespace CrawlCluster

namespace Roster

variable {ν : Type} {link : Link ν} {d : Delimiters} {me target : Peer} {net : ν}
variable {joined : Joined} {error : JoinError}

/-- An attempt succeeds just if it comes to a peer that takes the node in, before an answer spoils
it and before the dials run out. -/
theorem join_ok_iff : (join link d me target net).1 = .ok joined ↔
    ∃ via mid, via.length < maxDials ∧
      (join link.recording d me target (net, [])).2.2 = via ++ [joined.leader] ∧
      Route link d me target net via joined.leader mid ∧
      Says d (ask link d me joined.leader mid).1 (.accepted joined.you joined.members)
        joined.rest := by
  constructor
  · intro hjoin
    obtain ⟨dialled, hconcludes, hrecords⟩ := joinFrom_concludes link d me maxDials target net
    have hdialled : (join link.recording d me target (net, [])).2.2 = dialled :=
      congrArg (·.2.2) (hrecords [])
    rw [join] at hjoin
    generalize joinFrom link d me maxDials target net = outcome at hconcludes hjoin
    cases hconcludes with
    | accepted hroute hvia hheard =>
      cases hjoin
      exact ⟨_, _, hvia, hdialled, hroute, hheard⟩
    | spoilt | exhausted => cases hjoin
  · rintro ⟨via, mid, hvia, -, hroute, hheard⟩
    exact congrArg Prod.fst (Concludes.accepted hroute hvia hheard).joinFrom

theorem join_error_iff : (join link d me target net).1 = .error error ↔
    (∃ via last mid, via.length < maxDials ∧ Route link d me target net via last mid ∧
      Spoils d me (ask link d me last mid).1 error) ∨
    error = .tooManyRedirects ∧
      ∃ via last mid, via.length = maxDials ∧ Route link d me target net via last mid := by
  constructor
  · intro hjoin
    obtain ⟨dialled, hconcludes, -⟩ := joinFrom_concludes link d me maxDials target net
    rw [join] at hjoin
    generalize joinFrom link d me maxDials target net = outcome at hconcludes hjoin
    cases hconcludes with
    | accepted => cases hjoin
    | spoilt hroute hvia hspoils =>
      cases hjoin
      exact .inl ⟨_, _, _, hvia, hroute, hspoils⟩
    | exhausted hroute hvia =>
      cases hjoin
      exact .inr ⟨rfl, _, _, _, hvia, hroute⟩
  · rintro (⟨via, last, mid, hvia, hroute, hspoils⟩ | ⟨rfl, via, last, mid, hvia, hroute⟩)
    · exact congrArg Prod.fst (Concludes.spoilt hroute hvia hspoils).joinFrom
    · exact congrArg Prod.fst (Concludes.exhausted hroute hvia).joinFrom

theorem join_recording (link : Link ν) (d : Delimiters) (me target : Peer) (net : ν) :
    (join link.recording d me target (net, [])).1 = (join link d me target net).1 ∧
      (join link.recording d me target (net, [])).2.2.length ≤ maxDials := by
  obtain ⟨dialled, hconcludes, hrecords⟩ := joinFrom_concludes link d me maxDials target net
  have hsame := hrecords []
  rw [join, join, hsame]
  exact ⟨rfl, hconcludes.length_le⟩

variable (link d me) (bound : Net.Endpoint)

/-- Seeds gone through in order to no avail: the node itself is passed over, and no other leads to a
leader. -/
inductive InVain : List Peer → ν → ν → Prop where
  | nobody (net : ν) : InVain [] net net
  | self {seed : Peer} {seeds : List Peer} {net after : ν} (hself : isSelf seed me bound = true)
    (rest : InVain seeds net after) : InVain (seed :: seeds) net after
  | failed {seed : Peer} {seeds : List Peer} {net after : ν} {error : JoinError}
    (hother : isSelf seed me bound = false)
    (hfails : (join link d me seed net).1 = .error error)
    (rest : InVain seeds (join link d me seed net).2 after) : InVain (seed :: seeds) net after

/-- The first seed in order that is not the node itself and leads to a leader has led to this. -/
def FirstLed (seeds : List Peer) (net : ν) (joined : Joined) : Prop :=
  ∃ front seed back mid, seeds = front ++ seed :: back ∧ InVain link d me bound front net mid ∧
    isSelf seed me bound = false ∧ (join link d me seed mid).1 = .ok joined

def others (seeds : List Peer) : List Peer := seeds.filter fun seed => !isSelf seed me bound

variable {link d me bound} {seed : Peer} {front back seeds : List Peer} {mid after : ν}

theorem joinFirst_self (hself : isSelf seed me bound = true) :
    joinFirst link d me (others me bound (seed :: seeds)) net =
      joinFirst link d me (others me bound seeds) net := by
  rw [others, List.filter_cons_of_neg (by simp [hself]), others]

theorem joinFirst_failed (hother : isSelf seed me bound = false)
    (hfails : (join link d me seed net).1 = .error error) :
    joinFirst link d me (others me bound (seed :: seeds)) net =
      joinFirst link d me (others me bound seeds) (join link d me seed net).2 := by
  have hjoin : join link d me seed net = (.error error, (join link d me seed net).2) :=
    Prod.ext hfails rfl
  rw [others, List.filter_cons_of_pos (by simp [hother]), joinFirst, hjoin, others]

theorem joinFirst_joined (hother : isSelf seed me bound = false)
    (hjoins : (join link d me seed net).1 = .ok joined) :
    joinFirst link d me (others me bound (seed :: seeds)) net =
      (some joined, (join link d me seed net).2) := by
  have hjoin : join link d me seed net = (.ok joined, (join link d me seed net).2) :=
    Prod.ext hjoins rfl
  rw [others, List.filter_cons_of_pos (by simp [hother]), joinFirst, hjoin]

theorem InVain.joinFirst (h : InVain link d me bound front net mid) (back : List Peer) :
    joinFirst link d me (others me bound (front ++ back)) net =
      joinFirst link d me (others me bound back) mid := by
  induction h with
  | nobody => rfl
  | self hself _ ih => rw [List.cons_append, joinFirst_self hself, ih]
  | failed hother hfails _ ih => rw [List.cons_append, joinFirst_failed hother hfails, ih]

theorem FirstLed.joinFirst (h : FirstLed link d me bound seeds net joined) :
    ∃ after, joinFirst link d me (others me bound seeds) net = (some joined, after) := by
  obtain ⟨front, seed, back, mid, rfl, hfront, hother, hjoins⟩ := h
  exact ⟨_, (hfront.joinFirst _).trans (joinFirst_joined hother hjoins)⟩

theorem InVain.joinFirst_none (h : InVain link d me bound seeds net after) :
    Roster.joinFirst link d me (others me bound seeds) net = (none, after) := by
  have hall := h.joinFirst []
  rwa [List.append_nil] at hall

theorem FirstLed.cons_self (hself : isSelf seed me bound = true)
    (h : FirstLed link d me bound seeds net joined) :
    FirstLed link d me bound (seed :: seeds) net joined := by
  obtain ⟨front, led, back, mid, rfl, hfront, hother, hjoins⟩ := h
  exact ⟨seed :: front, led, back, mid, rfl, .self hself hfront, hother, hjoins⟩

theorem FirstLed.cons_failed (hother : isSelf seed me bound = false)
    (hfails : (join link d me seed net).1 = .error error)
    (h : FirstLed link d me bound seeds (join link d me seed net).2 joined) :
    FirstLed link d me bound (seed :: seeds) net joined := by
  obtain ⟨front, led, back, mid, rfl, hfront, hled, hjoins⟩ := h
  exact ⟨seed :: front, led, back, mid, rfl, .failed hother hfails hfront, hled, hjoins⟩

/-- Either some seed is the first that leads to a leader, or none does. -/
theorem firstLed_or_inVain (link : Link ν) (d : Delimiters) (me : Peer) (bound : Net.Endpoint)
    (seeds : List Peer) (net : ν) :
    (∃ joined, FirstLed link d me bound seeds net joined) ∨
      ∃ after, InVain link d me bound seeds net after := by
  induction seeds generalizing net with
  | nil => exact .inr ⟨net, .nobody net⟩
  | cons first seeds ih =>
    cases hself : isSelf first me bound with
    | true =>
      obtain ⟨joined, h⟩ | ⟨after, h⟩ := ih net
      · exact .inl ⟨joined, h.cons_self hself⟩
      · exact .inr ⟨after, .self hself h⟩
    | false =>
      cases hjoin : (join link d me first net).1 with
      | ok joined => exact .inl ⟨joined, [], first, seeds, net, rfl, .nobody net, hself, hjoin⟩
      | error error =>
        obtain ⟨joined, h⟩ | ⟨after, h⟩ := ih (join link d me first net).2
        · exact .inl ⟨joined, h.cons_failed hself hjoin⟩
        · exact .inr ⟨after, .failed hself hjoin h⟩

end Roster

namespace Node

open Roster (FirstLed InVain Joined Route Says Spoils ask initialIdentity isSelf join maxDials)

variable {σ ν : Type} {link : Link ν} {site : Coordinator.Site σ} {p : Parameters}
variable {bound : Net.Endpoint} {node : Node σ} {net after : ν} {joined : Joined}

theorem start_unjoined (hjoin : Roster.joinFirst link node.delimiters
      (initialIdentity p.advertise bound)
      (Roster.others (initialIdentity p.advertise bound) bound p.seeds) net = (none, after)) :
    ∃ started after, node.start link site p bound net = (none, started, after) ∧
      started.members.role = .leader ∧
      started.members.me = initialIdentity p.advertise bound := by
  rw [Roster.others, delimiters] at hjoin
  rw [start]
  split
  · exact ⟨_, _, rfl, rfl, rfl⟩
  · simp only [delimiters, hjoin]
    exact ⟨_, _, rfl, rfl, rfl⟩

theorem start_firstLed (site : Coordinator.Site σ) (hleads : p.assumeLeader = false)
    (hled : FirstLed link node.delimiters (initialIdentity p.advertise bound) bound p.seeds net
      joined) :
    ∃ started after, node.start link site p bound net = (some joined, started, after) ∧
      started.members.role = .follower joined.leader ∧ started.members.me = joined.you := by
  obtain ⟨after, hjoin⟩ := hled.joinFirst
  obtain ⟨front, seed, back, mid, hseeds, -⟩ := hled
  obtain ⟨started, hstart, hplace⟩ := start_joined hleads (by simp [hseeds]) hjoin
  exact ⟨started, after, hstart, congrArg Place.role hplace, congrArg Place.me hplace⟩

def Unled (link : Link ν) (p : Parameters) (bound : Net.Endpoint) (node : Node σ) (net : ν) :
    Prop :=
  p.assumeLeader = true ∨ p.seeds = [] ∨
    ∃ after, InVain link node.delimiters (initialIdentity p.advertise bound) bound p.seeds net after

theorem start_unled (site : Coordinator.Site σ) (h : Unled link p bound node net) :
    ∃ started after, node.start link site p bound net = (none, started, after) ∧
      started.members.role = .leader ∧
      started.members.me = initialIdentity p.advertise bound := by
  have halone (h : p.assumeLeader = true ∨ p.seeds = []) :
      ∃ started after, node.start link site p bound net = (none, started, after) ∧
        started.members.role = .leader ∧
        started.members.me = initialIdentity p.advertise bound := by
    obtain ⟨started, hstart, hplace⟩ : ∃ started,
        node.start link site p bound net = (none, started, net) ∧ started.place =
          { node.place with role := .leader, me := initialIdentity p.advertise bound } :=
      start_alone h
    exact ⟨started, net, hstart, congrArg Place.role hplace, congrArg Place.me hplace⟩
  rcases h with hleads | hseeds | ⟨after, h⟩
  · exact halone (.inl hleads)
  · exact halone (.inr hseeds)
  · exact start_unjoined h.joinFirst_none

theorem firstLed_or_unled (link : Link ν) (p : Parameters) (bound : Net.Endpoint) (node : Node σ)
    (net : ν) :
    (p.assumeLeader = false ∧ ∃ joined, FirstLed link node.delimiters
        (initialIdentity p.advertise bound) bound p.seeds net joined) ∨
      Unled link p bound node net := by
  cases hleads : p.assumeLeader with
  | true => exact .inr (.inl hleads)
  | false =>
    rcases Roster.firstLed_or_inVain link node.delimiters (initialIdentity p.advertise bound) bound
      p.seeds net with h | h
    · exact .inl ⟨rfl, h⟩
    · exact .inr (.inr (.inr h))

/-- An attempt to join dials no more often than it may. It succeeds just if redirects lead to a
peer that takes the node in, and that peer is the leader it has found; it fails just if an answer
on the way spoils it or the redirects do not end in time. A node that starts follows the leader that
the first of its seeds leads to, itself left out; told to lead, or with no seed that leads anywhere,
it leads under the name it gave itself. -/
theorem startup_finds_leader (link : Link ν) (site : Coordinator.Site σ) (p : Parameters)
    (bound : Net.Endpoint) (node : Node σ) (net : ν) :
    (∀ (d : Delimiters) (me target : Peer) (net : ν),
      (join link.recording d me target (net, [])).1 = (join link d me target net).1 ∧
      (join link.recording d me target (net, [])).2.2.length ≤ maxDials ∧
      (∀ joined, (join link d me target net).1 = .ok joined ↔
        ∃ via mid, via.length < maxDials ∧
          (join link.recording d me target (net, [])).2.2 = via ++ [joined.leader] ∧
          Route link d me target net via joined.leader mid ∧
          Says d (ask link d me joined.leader mid).1 (.accepted joined.you joined.members)
            joined.rest) ∧
      ∀ error, (join link d me target net).1 = .error error ↔
        (∃ via last mid, via.length < maxDials ∧ Route link d me target net via last mid ∧
          Spoils d me (ask link d me last mid).1 error) ∨
        error = .tooManyRedirects ∧
          ∃ via last mid, via.length = maxDials ∧ Route link d me target net via last mid) ∧
    let me := initialIdentity p.advertise bound
    let started := node.start link site p bound net
    (∀ joined, started.1 = some joined ↔
        p.assumeLeader = false ∧ FirstLed link node.delimiters me bound p.seeds net joined) ∧
      (started.1 = none ↔ Unled link p bound node net) ∧
      (match started.1 with
        | some joined => started.2.1.members.role = .follower joined.leader ∧
            started.2.1.members.me = joined.you
        | none => started.2.1.members.role = .leader ∧ started.2.1.members.me = me) ∧
      started.2.1.members.role ≠ .unstarted ∧ started.2.1.members.role ≠ .attemptingJoin := by
  refine ⟨fun d me target net => ?_, ?_⟩
  · obtain ⟨hsame, hlength⟩ := Roster.join_recording link d me target net
    exact ⟨hsame, hlength, fun _ => Roster.join_ok_iff, fun _ => Roster.join_error_iff⟩
  · intro me started
    -- what a node finds is determined, so each half of the alternative excludes the other
    rcases firstLed_or_unled link p bound node net with ⟨hleads, found, hled⟩ | hunled
    · obtain ⟨follower, after, hstart, hrole, hme⟩ := start_firstLed site hleads hled
      have hstarted : started = (some found, follower, after) := hstart
      rw [hstarted]
      refine ⟨fun joined => ⟨fun h => ?_, fun h => ?_⟩, ⟨fun h => ?_, fun h => ?_⟩,
        ⟨hrole, hme⟩, ?_⟩
      · cases h
        exact ⟨hleads, hled⟩
      · obtain ⟨other, later, hother, -⟩ := start_firstLed site h.1 h.2
        exact congrArg Prod.fst (hstart.symm.trans hother)
      · cases h
      · obtain ⟨other, later, hother, -⟩ := start_unled site h
        exact congrArg Prod.fst (hstart.symm.trans hother)
      · rw [hrole]
        simp
    · obtain ⟨leader, after, hstart, hrole, hme⟩ := start_unled site hunled
      have hstarted : started = (none, leader, after) := hstart
      rw [hstarted]
      refine ⟨fun joined => ⟨fun h => ?_, fun h => ?_⟩, ⟨fun _ => hunled, fun _ => rfl⟩,
        ⟨hrole, hme⟩, ?_⟩
      · cases h
      · obtain ⟨other, later, hother, -⟩ := start_firstLed site h.1 h.2
        exact congrArg Prod.fst (hstart.symm.trans hother)
      · rw [hrole]
        simp

def hamlet : Link Unit where
  exchange peer _ net :=
    let reply (answer : Roster.JoinAnswer) : Reply :=
      .bytes ((Frame.Response.success (answer.encode {})).encode {}) false
    if peer = ⟨"l", 3⟩ then (reply (.accepted ⟨"n", 9⟩ []), net)
    else if peer = ⟨"f", 2⟩ then (reply (.redirect ⟨"l", 3⟩), net)
    else (.refused, net)

def hamletSite : Coordinator.Site Unit where
  backend := ⟨fun _ _ rows => (.error .notFound, rows)⟩
  retry := {}
  now := 0

def newcomer : Parameters where
  bind := { ip := Net.Ip.loopback, port := 9 }
  advertise := some "n"
  seeds := [⟨"gone", 1⟩, ⟨"n", 9⟩, ⟨"f", 2⟩]

theorem startup_finds_leader_sentOn :
    let started := ({ desk := { store := () } } : Node Unit).start hamlet hamletSite newcomer
      newcomer.bind ()
    started.1 = some { leader := ⟨"l", 3⟩, you := ⟨"n", 9⟩, members := [] } ∧
      started.2.1.members.role = .follower ⟨"l", 3⟩ ∧ started.2.1.members.me = ⟨"n", 9⟩ := by
  intro started
  have hgone : (join hamlet {} ⟨"n", 9⟩ ⟨"gone", 1⟩ ()).1 = .error .unreachable := by
    decide +kernel
  have hsentOn : Frame.readResponse {} ((Frame.Response.success "l?3").encode {}) =
      (.frame (.success "l?3"), []) := by decide +kernel
  have htakenIn : Frame.readResponse {} ((Frame.Response.success "ok?n?9").encode {}) =
      (.frame (.success "ok?n?9"), []) := by decide +kernel
  obtain ⟨hdials, hjoined, -, hrole, -⟩ := startup_finds_leader hamlet hamletSite newcomer
    newcomer.bind ({ desk := { store := () } } : Node Unit) ()
  have hjoin : (join hamlet {} ⟨"n", 9⟩ ⟨"f", 2⟩ ()).1 =
      .ok { leader := ⟨"l", 3⟩, you := ⟨"n", 9⟩, members := [] } :=
    ((hdials {} ⟨"n", 9⟩ ⟨"f", 2⟩ ()).2.2.1 _).2 ⟨[⟨"f", 2⟩], (), by decide, by decide +kernel,
      .hop (.response hsentOn rfl (by decide +kernel)) (by decide) (.here _ _),
      .response htakenIn rfl (by decide +kernel)⟩
  have hfound := (hjoined { leader := ⟨"l", 3⟩, you := ⟨"n", 9⟩, members := [] }).2 ⟨rfl,
    [⟨"gone", 1⟩, ⟨"n", 9⟩], ⟨"f", 2⟩, [], (), rfl,
    .failed (by decide) hgone (.self (by decide) (.nobody ())), by decide, hjoin⟩
  rw [hfound] at hrole
  exact ⟨hfound, hrole⟩

end Node
end CrawlCluster
