import CrawlCluster.Proofs.Roster.Cohort

set_option autoImplicit false

namespace CrawlCluster.Roster

namespace Line

/-- Where a member goes that was there when the follower of the line joined. -/
def rank (line : Line) (peer : Peer) : Nat :=
  if peer ∈ line.untold then 2 else if peer = line.peer then 1 else 0

theorem rank_eq_zero_iff {line : Line} {peer : Peer} :
    line.rank peer = 0 ↔ peer ∉ line.untold ∧ peer ≠ line.peer := by
  grind [rank]

theorem rank_eq_one_iff {line : Line} {peer : Peer} :
    line.rank peer = 1 ↔ peer ∉ line.untold ∧ peer = line.peer := by
  grind [rank]

theorem rank_eq_two_iff {line : Line} {peer : Peer} :
    line.rank peer = 2 ↔ peer ∈ line.untold := by
  grind [rank]

/-- Members by rank, those of one rank in the order they have. -/
def arrange (line : Line) (members : List Peer) : List Peer :=
  members.filter (line.rank · = 0) ++ members.filter (line.rank · = 1) ++
    members.filter (line.rank · = 2)

theorem rank_lt (line : Line) (peer : Peer) : line.rank peer < 3 := by
  unfold rank
  split
  · omega
  · split <;> omega

theorem perm_arrange (line : Line) (members : List Peer) :
    (line.arrange members).Perm members := by
  induction members with
  | nil => exact .refl _
  | cons peer members ih =>
    have hrank := line.rank_lt peer
    have hcases : line.rank peer = 0 ∨ line.rank peer = 1 ∨ line.rank peer = 2 := by omega
    refine .trans ?_ (ih.cons peer)
    simp only [arrange, List.append_assoc]
    rcases hcases with hr | hr | hr
    · simp [hr]
    · simp [hr]
    · simp [hr, ← List.append_assoc]

theorem mem_arrange {line : Line} {members : List Peer} {peer : Peer} :
    peer ∈ line.arrange members ↔ peer ∈ members := (line.perm_arrange members).mem_iff

theorem arrange_filter (line : Line) (p : Peer → Bool) (members : List Peer) :
    line.arrange (members.filter p) = (line.arrange members).filter p := by
  simp only [arrange, List.filter_append, List.filter_filter, Bool.and_comm]

/-- The arrangement of a joiner that lists itself behind the others, before the changes that are
still to be told move those who were removed to the end. -/
theorem arrange_joiner (line : Line) {members : List Peer} (hnodup : members.Nodup)
    (hmem : line.peer ∈ members) :
    line.arrange members =
      (members.filter (· ≠ line.peer) ++ [line.peer]).filter (· ∉ line.untold) ++
        members.filter (· ∈ line.untold) := by
  have hself : members.filter (· = line.peer) = [line.peer] := by
    rw [List.filter_eq, hnodup.count, if_pos hmem]
    rfl
  simp only [arrange, rank_eq_zero_iff, rank_eq_one_iff, rank_eq_two_iff, Bool.decide_and]
  rw [List.filter_append, List.filter_filter, ← hself, List.filter_filter]

theorem pairwise_arrange (line : Line) (members : List Peer) :
    (line.arrange members).Pairwise (line.rank · ≤ line.rank ·) := by
  have hsame : ∀ n, (members.filter (line.rank · = n)).Pairwise (line.rank · ≤ line.rank ·) := by
    intro n
    refine List.pairwise_of_forall_mem_list ?_
    intro a ha b hb
    have hra : line.rank a = n := by simpa using (List.mem_filter.1 ha).2
    have hrb : line.rank b = n := by simpa using (List.mem_filter.1 hb).2
    omega
  refine List.pairwise_append.2 ⟨List.pairwise_append.2 ⟨hsame 0, hsame 1, ?_⟩, hsame 2, ?_⟩
  · intro a ha b _
    have hra : line.rank a = 0 := by simpa using (List.mem_filter.1 ha).2
    omega
  · intro a _ b hb
    have hra := line.rank_lt a
    have hrb : line.rank b = 2 := by simpa using (List.mem_filter.1 hb).2
    omega

theorem arrange_of_pairwise {line : Line} {members : List Peer}
    (h : members.Pairwise (line.rank · ≤ line.rank ·)) : line.arrange members = members := by
  induction members with
  | nil => rfl
  | cons peer members ih =>
    obtain ⟨hpeer, hmembers⟩ := List.pairwise_cons.1 h
    have hrest := ih hmembers
    have hnone : ∀ n, n < line.rank peer → members.filter (line.rank · = n) = [] := by
      intro n hn
      refine List.filter_eq_nil_iff.2 ?_
      intro other hother
      have hle := hpeer other hother
      simp only [decide_eq_true_eq]
      omega
    have hrank := line.rank_lt peer
    have hcases : line.rank peer = 0 ∨ line.rank peer = 1 ∨ line.rank peer = 2 := by omega
    rw [arrange] at hrest ⊢
    rcases hcases with hr | hr | hr
    · simpa [hr] using hrest
    · rw [hr] at hnone
      rw [hnone 0 (by omega)] at hrest
      simpa [hr, hnone 0 (by omega)] using hrest
    · rw [hr] at hnone
      rw [hnone 0 (by omega), hnone 1 (by omega)] at hrest
      simpa [hr, hnone 0 (by omega), hnone 1 (by omega)] using hrest

theorem arrange_eq_self_iff {line : Line} {members : List Peer} :
    line.arrange members = members ↔ members.Pairwise (line.rank · ≤ line.rank ·) := by
  constructor
  · intro h
    rw [← h]
    exact line.pairwise_arrange members
  · exact arrange_of_pairwise

end Line

theorem replay_added {view peers : List Peer} (h : (view ++ peers).Nodup) :
    replay (peers.map .added) view = view ++ peers := by
  induction peers generalizing view with
  | nil => simp [replay]
  | cons peer peers ih =>
    have hpeer : peer ∉ view := by
      intro hmem
      exact (List.nodup_append.1 h).2.2 peer hmem peer (by simp) rfl
    have hnext : replay (peers.map .added) (view ++ [peer]) = view ++ [peer] ++ peers :=
      ih (by simpa using h)
    rw [List.append_cons, ← hnext]
    show replay _ (Change.applyTo view (.added peer)) = _
    rw [Change.applyTo, if_neg hpeer]

namespace State

theorem followers_addActive (peer : Peer) (socket : Socket) (s : State) :
    (s.addActive peer socket).followers =
      if peer ∈ s.followers then s.followers else s.followers ++ [peer] :=
  peers_putActive ⟨peer, socket⟩ s.active

theorem others_addActive (peer : Peer) (socket : Socket) (s : State) :
    (s.addActive peer socket).followers.filter (· ≠ peer) = s.followers.filter (· ≠ peer) := by
  rw [followers_addActive]
  split <;> simp

theorem view_follow {leader you : Peer} {members : List Peer} (before : State)
    (h : (members ++ [you]).Nodup) :
    (before.follow leader you members).view = members ++ [you] := by
  unfold follow
  rw [view_applyAll]
  exact replay_added h

theorem active_removeActive_subset (socket : Socket) (s : State) :
    (s.removeActive socket).active ⊆ s.active := by
  unfold removeActive
  cases h : takeActive socket s.active with
  | none => exact List.Subset.refl _
  | some taken =>
    obtain ⟨peer, rest⟩ := taken
    obtain ⟨front, back, hactive, hrest, -⟩ := takeActive_eq_some h
    rw [hactive, hrest]
    intro entry hentry
    simp only [List.mem_append, List.mem_cons] at hentry ⊢
    exact hentry.imp id .inr

theorem removeActive_cases (socket : Socket) (s : State) (hs : s.followers.Nodup) :
    s.removeActive socket = s ∨ ∃ peer,
      (s.removeActive socket).followers = s.followers.filter (· ≠ peer) ∧
      (s.removeActive socket).pending = s.pending ++ [.removed peer] := by
  unfold removeActive
  cases h : takeActive socket s.active with
  | none => exact .inl rfl
  | some taken =>
    obtain ⟨peer, rest⟩ := taken
    obtain ⟨front, back, hactive, hrest, -⟩ := takeActive_eq_some h
    refine .inr ⟨peer, ?_, rfl⟩
    simp only [followers, hactive, hrest, List.map_append, List.map_cons] at hs ⊢
    obtain ⟨-, hback, hfront⟩ := List.nodup_append.1 hs
    have hpeer := (List.nodup_cons.1 hback).1
    have hkeep : ∀ peers : List Peer, peer ∉ peers → peers.filter (· ≠ peer) = peers := by
      intro peers hmem
      refine List.filter_eq_self.2 ?_
      intro other hother
      simpa using fun he : other = peer => hmem (he ▸ hother)
    rw [List.filter_append, List.filter_cons_of_neg (by simp), hkeep _ hpeer, hkeep]
    intro hmem
    exact hfront peer hmem peer (by simp) rfl

end State

/-- What the follower of a line will see, once it has heard everything: the members it found,
arranged, and behind them those that came later. -/
def Line.Tells (line : Line) (leader : State) : Prop :=
  ∃ newcomers, leader.followers = line.stayed ++ newcomers ∧
    line.outlook leader.pending = line.arrange line.stayed ++ newcomers

namespace Line.Tells

variable {line : Line} {leader left : State}

theorem mem_outlook (h : line.Tells leader) {peer : Peer} :
    peer ∈ line.outlook leader.pending ↔ peer ∈ leader.followers := by
  obtain ⟨newcomers, hfollowers, houtlook⟩ := h
  rw [houtlook, hfollowers, List.mem_append, List.mem_append, mem_arrange]

theorem join (h : line.Tells leader) (peer : Peer) (socket : Socket) :
    line.Tells (leader.addActive peer socket) := by
  have hmem : peer ∈ line.outlook leader.pending ↔ peer ∈ leader.followers := h.mem_outlook
  obtain ⟨newcomers, hfollowers, houtlook⟩ := h
  have hnext : line.outlook (leader.addActive peer socket).pending =
      (Change.added peer).applyTo (line.outlook leader.pending) := line.outlook_append _ _
  rw [Change.applyTo] at hnext
  rw [Line.Tells, State.followers_addActive, hnext]
  by_cases hpeer : peer ∈ leader.followers
  · rw [if_pos hpeer, if_pos (hmem.2 hpeer)]
    exact ⟨newcomers, hfollowers, houtlook⟩
  · rw [if_neg hpeer, if_neg (mt hmem.1 hpeer)]
    refine ⟨newcomers ++ [peer], ?_, ?_⟩
    · rw [hfollowers, List.append_assoc]
    · rw [houtlook, List.append_assoc]

theorem lose (h : line.Tells leader) {peer : Peer}
    (hfollowers : left.followers = leader.followers.filter (· ≠ peer))
    (hpending : left.pending = leader.pending ++ [.removed peer]) :
    Line.Tells { line with stayed := line.stayed.filter (· ∈ left.followers) } left := by
  obtain ⟨newcomers, hbefore, houtlook⟩ := h
  have hstayed : line.stayed.filter (· ∈ left.followers) = line.stayed.filter (· ≠ peer) := by
    refine List.filter_congr ?_
    intro other hother
    simp [hfollowers, hbefore, hother]
  have hnext : line.outlook left.pending = (line.outlook leader.pending).filter (· ≠ peer) := by
    rw [hpending]
    exact line.outlook_append _ _
  refine ⟨newcomers.filter (· ≠ peer), ?_, ?_⟩
  · rw [hstayed, hfollowers, hbefore, List.filter_append]
  · rw [hstayed]
    show line.outlook left.pending = line.arrange (line.stayed.filter (· ≠ peer)) ++ _
    rw [hnext, houtlook, arrange_filter, List.filter_append]

theorem unchanged (h : line.Tells leader) :
    Line.Tells { line with stayed := line.stayed.filter (· ∈ leader.followers) } leader := by
  obtain ⟨newcomers, hfollowers, houtlook⟩ := h
  have hstayed : line.stayed.filter (· ∈ leader.followers) = line.stayed := by
    refine List.filter_eq_self.2 ?_
    intro peer hpeer
    simp [hfollowers, hpeer]
  rw [hstayed]
  exact ⟨newcomers, hfollowers, houtlook⟩

theorem tick (h : line.Tells leader) :
    (line.send (.beat leader.pending)).Tells leader.takePending.2 := by
  obtain ⟨newcomers, hfollowers, houtlook⟩ := h
  rw [← outlook_beat] at houtlook
  exact ⟨newcomers, hfollowers, houtlook⟩

theorem hear (h : line.Tells leader) : line.hear.Tells leader := by
  obtain ⟨newcomers, hfollowers, houtlook⟩ := h
  rw [← outlook_hear] at houtlook
  have hrank : line.hear.rank = line.rank := by
    funext peer
    simp [rank]
  refine ⟨newcomers, ?_, ?_⟩
  · rw [stayed_hear, hfollowers]
  · rw [stayed_hear, houtlook]
    simp only [arrange, hrank]

end Line.Tells

theorem State.replays_addActive {s : State} (peer : Peer) (socket : Socket)
    (h : Replays s.followers s.pending) :
    Replays (s.addActive peer socket).followers (s.addActive peer socket).pending := by
  rw [followers_addActive]
  by_cases hpeer : peer ∈ s.followers
  · rw [if_pos hpeer]
    exact h.rejoin hpeer
  · rw [if_neg hpeer]
    exact h.join hpeer

theorem State.nodup_addActive {s : State} (peer : Peer) (socket : Socket)
    (h : s.followers.Nodup) : (s.addActive peer socket).followers.Nodup := by
  rw [followers_addActive]
  by_cases hpeer : peer ∈ s.followers
  · rw [if_pos hpeer]
    exact h
  · rw [if_neg hpeer]
    refine List.nodup_append.2 ⟨h, List.pairwise_singleton _ _, ?_⟩
    intro a ha b hb he
    rw [List.mem_singleton.1 hb] at he
    exact hpeer (he ▸ ha)

theorem Line.tells_ofJoin (peer : Peer) (socket : Socket) (before : State) {leader : State}
    (hnodup : leader.followers.Nodup) (hreplays : Replays leader.followers leader.pending) :
    (ofJoin peer socket before leader).Tells (leader.addActive peer socket) := by
  have hafter := State.nodup_addActive peer socket hnodup
  have hreplay := State.replays_addActive peer socket hreplays
  have hothers := State.others_addActive peer socket leader
  have hmem : peer ∈ (leader.addActive peer socket).followers := by
    rw [State.followers_addActive]
    by_cases hpeer : peer ∈ leader.followers <;> simp [hpeer]
  have hview := nodup_moveToEnd hnodup peer
  have hsub : (leader.addActive peer socket).followers ⊆
      leader.followers.filter (· ≠ peer) ++ [peer] := by
    intro p hp
    rw [← hothers]
    by_cases hpeer : p = peer <;> simp [hpeer, hp]
  have houtlook :
      (ofJoin peer socket before leader).outlook (leader.addActive peer socket).pending =
        replay (leader.addActive peer socket).pending
          (leader.followers.filter (· ≠ peer) ++ [peer]) :=
    congrArg (replay _) (State.view_follow before hview)
  refine ⟨[], (List.append_nil _).symm, ?_⟩
  rw [houtlook, hreplay _ hview hsub, List.append_nil, ← hothers]
  exact ((ofJoin peer socket before leader).arrange_joiner hafter hmem).symm

namespace Cohort

/-- What a leader and its followers keep, whatever happens. -/
structure Settled (c : Cohort) : Prop where
  nodup : c.leader.followers.Nodup
  replays : Replays c.leader.followers c.leader.pending
  tells : ∀ line ∈ c.lines, c.Serves line → line.Tells c.leader

theorem settled_start (me : Peer) : (start me).Settled where
  nodup := List.nodup_nil
  replays := .nil []
  tells := by simp [start]

theorem mem_putActive {entry a : ActivePeer} {active : List ActivePeer}
    (h : a ∈ putActive entry active) : a = entry ∨ a ∈ active := by
  induction active with
  | nil => exact .inl (List.mem_singleton.1 h)
  | cons first active ih =>
    rw [putActive] at h
    split at h
    · next hpeer =>
      rcases List.mem_cons.1 h with rfl | h
      · exact .inl (by rw [hpeer])
      · exact .inr (List.mem_cons_of_mem _ h)
    · rcases List.mem_cons.1 h with rfl | h
      · exact .inr (List.mem_cons_self ..)
      · exact (ih h).imp id (List.mem_cons_of_mem _)

theorem Settled.join {c : Cohort} (h : c.Settled) (peer : Peer) {socket : Socket} (before : State)
    (hfresh : ∀ line ∈ c.lines, line.socket ≠ socket) : (c.join peer socket before).Settled where
  nodup := State.nodup_addActive peer socket h.nodup
  replays := State.replays_addActive peer socket h.replays
  tells := by
    intro line hline hserves
    rcases List.mem_append.1 hline with hline | hline
    · rcases mem_putActive hserves with he | hserves
      · exact absurd (congrArg ActivePeer.socket he) (hfresh line hline)
      · exact (h.tells line hline hserves).join peer socket
    · rw [List.mem_singleton.1 hline]
      exact Line.tells_ofJoin peer socket before h.nodup h.replays

theorem Settled.tick {c : Cohort} (h : c.Settled) : c.tick.Settled where
  nodup := h.nodup
  replays := .nil _
  tells := by
    intro line hline hserves
    obtain ⟨before, hbefore, hsent⟩ := List.mem_map.1 hline
    split at hsent
    · subst hsent
      exact (h.tells before hbefore hserves).tick
    · next hunused =>
      subst hsent
      exact absurd (List.mem_map_of_mem hserves) hunused

theorem Settled.lose {c : Cohort} (h : c.Settled) (socket : Socket) : (c.lose socket).Settled := by
  rcases State.removeActive_cases socket c.leader h.nodup with
    hsame | ⟨peer, hfollowers, hpending⟩
  · have hleader : (c.lose socket).leader = c.leader := hsame
    refine ⟨?_, ?_, ?_⟩
    · rw [hleader]
      exact h.nodup
    · rw [hleader]
      exact h.replays
    · intro line hline hserves
      rw [Serves, hleader] at hserves
      obtain ⟨before, hbefore, rfl⟩ := List.mem_map.1 hline
      rw [hleader, hsame]
      exact (h.tells before hbefore hserves).unchanged
  · refine ⟨?_, ?_, ?_⟩
    · show (c.leader.removeActive socket).followers.Nodup
      rw [hfollowers]
      exact List.Pairwise.filter _ h.nodup
    · show Replays (c.leader.removeActive socket).followers (c.leader.removeActive socket).pending
      rw [hfollowers, hpending]
      exact h.replays.leave peer
    · intro line hline hserves
      obtain ⟨before, hbefore, rfl⟩ := List.mem_map.1 hline
      have hbefores := State.active_removeActive_subset socket c.leader hserves
      exact (h.tells before hbefore hbefores).lose hfollowers hpending

theorem Settled.hear {c : Cohort} (h : c.Settled) (socket : Socket) : (c.hear socket).Settled where
  nodup := h.nodup
  replays := h.replays
  tells := by
    intro line hline hserves
    obtain ⟨before, hbefore, hheard⟩ := List.mem_map.1 hline
    split at hheard
    · subst hheard
      rw [Serves, Line.peer_hear, Line.socket_hear] at hserves
      exact (h.tells before hbefore hserves).hear
    · subst hheard
      exact h.tells before hbefore hserves

theorem Reachable.settled {c : Cohort} (h : c.Reachable) : c.Settled := by
  induction h with
  | start me => exact settled_start me
  | join _ peer before hfresh ih => exact ih.join peer before hfresh
  | tick _ ih => exact ih.tick
  | lose _ socket ih => exact ih.lose socket
  | hear _ socket ih => exact ih.hear socket

/-- A follower that heard everything, while nothing is to be told, sees the members it found when
it joined in its own arrangement and those that came later behind them. It sees what its leader
has just when the members it found stand by rank. -/
theorem view_of_heard {c : Cohort} (hc : c.Reachable) (hpending : c.leader.pending = [])
    {line : Line} (hline : line ∈ c.lines) (hserves : c.Serves line) (hheard : line.inbox = []) :
    (∃ newcomers, c.leader.followers = line.stayed ++ newcomers ∧
      line.follower.view = line.arrange line.stayed ++ newcomers) ∧
    (line.follower.view = c.leader.followers ↔
      line.stayed.Pairwise (line.rank · ≤ line.rank ·)) := by
  obtain ⟨newcomers, hfollowers, houtlook⟩ := hc.settled.tells line hline hserves
  rw [hpending, Line.outlook_heard hheard] at houtlook
  refine ⟨⟨newcomers, hfollowers, houtlook⟩, ?_⟩
  rw [houtlook, hfollowers, List.append_left_inj, Line.arrange_eq_self_iff]

def overtaken : Cohort :=
  let x : Peer := ⟨"x", 1⟩
  let y : Peer := ⟨"y", 2⟩
  let joined := (((start ⟨"leader", 0⟩).join x ⟨"a"⟩ {}).lose ⟨"a"⟩).join x ⟨"b"⟩ {}
  let told := (joined.join y ⟨"c"⟩ {}).tick
  (((told.hear ⟨"b"⟩).hear ⟨"b"⟩).hear ⟨"c"⟩).hear ⟨"c"⟩

def overtaking : Line :=
  { socket := ⟨"c"⟩, peer := ⟨"y", 2⟩, untold := [⟨"x", 1⟩], stayed := [⟨"x", 1⟩, ⟨"y", 2⟩]
    follower :=
      { role := .follower ⟨"leader", 0⟩, me := ⟨"y", 2⟩, view := [⟨"y", 2⟩, ⟨"x", 1⟩] }
    inbox := [] }

theorem view_of_heard_overtaken :
    overtaken.Reachable ∧ overtaken.leader.pending = [] ∧ overtaking ∈ overtaken.lines ∧
      overtaken.Serves overtaking ∧ overtaking.follower.view ≠ overtaken.leader.followers := by
  have hreachable : overtaken.Reachable := by
    refine .hear (.hear (.hear (.hear (.tick (.join (.join (.lose (.join (.start _) _ _ ?_) _) _ _
      ?_) _ _ ?_)) _) _) _) _
    · decide +kernel
    · decide +kernel
    · decide +kernel
  have hpending : overtaken.leader.pending = [] := by decide +kernel
  have hline : overtaking ∈ overtaken.lines := by decide +kernel
  have hserves : overtaken.Serves overtaking := by
    unfold Serves
    decide +kernel
  have hview := (view_of_heard hreachable hpending hline hserves rfl).2
  refine ⟨hreachable, hpending, hline, hserves, ?_⟩
  rw [ne_eq, hview]
  decide +kernel

end Cohort

end CrawlCluster.Roster
