import CrawlCluster.Proofs.Roster.Agreement
import CrawlCluster.Roster.Succession

set_option autoImplicit false

namespace CrawlCluster.Roster

/-- Walking the candidates comes to an end at the one that searches, if not before. -/
theorem findSuccessor_ne_none {ν : Type} (link : Link ν) (d : Delimiters) {me : Peer} {s : Search}
    (hme : me ∈ s.candidates) (net : ν) : (findSuccessor link d me s net).1 ≠ none := by
  fun_induction findSuccessor link d me s net with
  | case1 s net hnone => simp [hnone] at hme
  | case2 => simp
  | case3 => simp
  | case4 s net candidate rest hcandidates hne _ _ _ _ ih =>
    apply ih
    have hrest : me ∈ rest := by
      rw [hcandidates] at hme
      exact (List.mem_cons.1 hme).resolve_left (Ne.symm hne)
    unfold Search.afterFailure
    split
    · exact hme
    · simpa [hcandidates] using hrest

theorem State.me_applyAll (changes : List Change) (s : State) : (s.applyAll changes).me = s.me := by
  induction changes generalizing s with
  | nil => rfl
  | cons change changes ih => exact ih (s.apply change)

namespace Line

theorem Tells.perm_outlook {line : Line} {leader : State} (h : line.Tells leader) :
    (line.outlook leader.pending).Perm leader.followers := by
  obtain ⟨newcomers, hfollowers, houtlook⟩ := h
  rw [houtlook, hfollowers]
  exact (line.perm_arrange line.stayed).append_right newcomers

def Named (line : Line) : Prop := (line.inbox.foldl State.hear line.follower).me = line.peer

theorem named_ofJoin (peer : Peer) (socket : Socket) (before leader : State) :
    (ofJoin peer socket before leader).Named := State.me_applyAll _ _

theorem Named.beat {line : Line} (h : line.Named) (changes : List Change) :
    (line.send (.beat changes)).Named := by
  unfold Named send
  rw [List.foldl_append]
  exact (State.me_applyAll changes _).trans h

theorem Named.hear {line : Line} (h : line.Named) : line.hear.Named := by
  unfold Named
  rw [foldl_hear, peer_hear]
  exact h

end Line

namespace Cohort

theorem Reachable.named {c : Cohort} (h : c.Reachable) {line : Line} (hline : line ∈ c.lines) :
    line.Named := by
  induction h generalizing line with
  | start me => simp [Cohort.start] at hline
  | join _ peer before _ ih =>
    rcases List.mem_append.1 hline with hline | hline
    · exact ih hline
    · rw [List.mem_singleton.1 hline]
      exact Line.named_ofJoin ..
  | tick _ ih =>
    obtain ⟨earlier, hearlier, rfl⟩ := List.mem_map.1 hline
    split
    · exact (ih hearlier).beat _
    · exact ih hearlier
  | lose _ socket ih =>
    obtain ⟨earlier, hearlier, rfl⟩ := List.mem_map.1 hline
    have hnamed : earlier.Named := ih hearlier
    exact hnamed
  | hear _ socket ih =>
    obtain ⟨earlier, hearlier, rfl⟩ := List.mem_map.1 hline
    split
    · exact (ih hearlier).hear
    · exact ih hearlier

theorem Reachable.line_of_active {c : Cohort} (h : c.Reachable) {entry : ActivePeer}
    (hentry : entry ∈ c.leader.active) : ∃ line ∈ c.lines, ⟨line.peer, line.socket⟩ = entry := by
  induction h with
  | start me => simp [Cohort.start, State.lead] at hentry
  | join _ peer before _ ih =>
    rcases mem_putActive hentry with rfl | hentry
    · exact ⟨_, List.mem_append_right _ (List.mem_singleton_self _), rfl⟩
    · obtain ⟨line, hline, he⟩ := ih hentry
      exact ⟨line, List.mem_append_left _ hline, he⟩
  | tick _ ih =>
    obtain ⟨line, hline, he⟩ := ih hentry
    refine ⟨_, List.mem_map_of_mem hline, ?_⟩
    split <;> exact he
  | lose hc socket ih =>
    obtain ⟨line, hline, he⟩ := ih (State.active_removeActive_subset socket _ hentry)
    exact ⟨_, List.mem_map_of_mem hline, he⟩
  | hear _ socket ih =>
    obtain ⟨line, hline, he⟩ := ih hentry
    refine ⟨_, List.mem_map_of_mem hline, ?_⟩
    split
    · rw [Line.peer_hear, Line.socket_hear]
      exact he
    · exact he

/-- Every follower of a leader has its line. Hearing what is in flight on it, and then what is
still to be told, it will see the followers of the leader, each once. When it has heard everything
and nothing is to be told it sees them now, itself under its own name among them, and would find a
successor in any network. -/
theorem membership_converges {c : Cohort} (hc : c.Reachable) :
    (∀ entry ∈ c.leader.active, ∃ line ∈ c.lines, ⟨line.peer, line.socket⟩ = entry) ∧
    ∀ line ∈ c.lines, c.Serves line →
      (line.outlook c.leader.pending).Nodup ∧
      (∀ peer, peer ∈ line.outlook c.leader.pending ↔ peer ∈ c.leader.followers) ∧
      (c.leader.pending = [] → line.inbox = [] →
        let follower := line.follower
        follower.view.Perm c.leader.followers ∧ follower.me = line.peer ∧
        follower.me ∈ follower.view ∧
        ∀ (ν : Type) (link : Link ν) (d : Delimiters) (net : ν),
          (findSuccessor link d follower.me { candidates := follower.view } net).1 ≠ none) := by
  refine ⟨fun entry hentry => hc.line_of_active hentry, ?_⟩
  intro line hline hserves
  have htells := hc.settled.tells line hline hserves
  have hperm := htells.perm_outlook
  refine ⟨hperm.nodup_iff.2 hc.settled.nodup, fun peer => hperm.mem_iff, ?_⟩
  intro hpending hheard follower
  rw [hpending, Line.outlook_heard hheard] at hperm
  have hme : follower.me = line.peer := by
    have hnamed := hc.named hline
    rwa [Line.Named, hheard] at hnamed
  have hmember : line.peer ∈ c.leader.followers := List.mem_map_of_mem (f := (·.peer)) hserves
  have hself : follower.me ∈ follower.view := by
    rw [hme]
    exact hperm.mem_iff.2 hmember
  exact ⟨hperm, hme, hself, fun ν link d net => findSuccessor_ne_none link d hself net⟩

def returned : Cohort :=
  let x : Peer := ⟨"x", 1⟩
  let y : Peer := ⟨"y", 2⟩
  let joined := ((start ⟨"leader", 0⟩).join x ⟨"a"⟩ {}).join y ⟨"b"⟩ {}
  let told := (joined.hear ⟨"b"⟩).tick
  (told.join x ⟨"c"⟩ {}).lose ⟨"a"⟩

theorem membership_converges_returned :
    (returned.Reachable ∧ returned.leader.pending = [.added ⟨"x", 1⟩] ∧
      ∃ line ∈ returned.lines, line.inbox = [.beat [.added ⟨"x", 1⟩, .added ⟨"y", 2⟩]] ∧
        ∀ peer, peer ∈ line.outlook returned.leader.pending ↔ peer ∈ returned.leader.followers) ∧
    let told := (returned.tick.hear ⟨"b"⟩).hear ⟨"b"⟩
    told.leader.pending = [] ∧
      ∃ line ∈ told.lines, line.inbox = [] ∧ line.follower.view.Perm told.leader.followers := by
  have hreachable : returned.Reachable := by
    refine .lose (.join (.tick (.hear (.join (.join (.start _) _ _ ?_) _ _ ?_) _)) _ _ ?_) _
    · decide +kernel
    · decide +kernel
    · decide +kernel
  refine ⟨⟨hreachable, by decide +kernel, ?_⟩, ?_⟩
  · obtain ⟨hline, hview⟩ := membership_converges hreachable
    obtain ⟨line, hline, he⟩ := hline ⟨⟨"y", 2⟩, ⟨"b"⟩⟩ (by decide +kernel)
    have hserves : returned.Serves line := by
      rw [Serves, he]
      decide +kernel
    have hinbox : ∀ line ∈ returned.lines, line.socket = ⟨"b"⟩ →
        line.inbox = [.beat [.added ⟨"x", 1⟩, .added ⟨"y", 2⟩]] := by decide +kernel
    exact ⟨line, hline, hinbox line hline (congrArg ActivePeer.socket he),
      (hview line hline hserves).2.1⟩
  · intro told
    have htold : told.Reachable := .hear (.hear (.tick hreachable) _) _
    have hpending : told.leader.pending = [] := by decide +kernel
    obtain ⟨hline, hview⟩ := membership_converges htold
    obtain ⟨line, hline, he⟩ := hline ⟨⟨"y", 2⟩, ⟨"b"⟩⟩ (by decide +kernel)
    have hserves : told.Serves line := by
      rw [Serves, he]
      decide +kernel
    have hinbox : ∀ line ∈ told.lines, line.socket = ⟨"b"⟩ → line.inbox = [] := by decide +kernel
    have hheard := hinbox line hline (congrArg ActivePeer.socket he)
    exact ⟨hpending, line, hline, hheard, ((hview line hline hserves).2.2 hpending hheard).1⟩

end Cohort
end CrawlCluster.Roster
