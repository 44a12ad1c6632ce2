import CrawlCluster.Proofs.Roster.Agreement
import CrawlCluster.Roster.Identity
import CrawlCluster.Roster.Lemmas

set_option autoImplicit false

namespace CrawlCluster.Roster

/-- The lists of a roster are those that its role calls for, and name nobody twice. -/
structure State.Coherent (s : State) : Prop where
  idle : s.role ≠ .leader → s.active = [] ∧ s.pending = []
  leads : s.role = .leader → s.view = []
  view : s.view.Nodup
  followers : s.followers.Nodup

def State.Knows (s : State) (peer : Peer) : Prop :=
  s.leader? = some peer ∨
    (match s.role with
    | .leader => peer ∈ s.followers
    | .follower _ => peer ∈ s.view
    | .unstarted | .attemptingJoin => False) ∨
    peer = s.me

theorem nodup_replay (changes : List Change) {view : List Peer} (h : view.Nodup) :
    (replay changes view).Nodup := by
  induction changes generalizing view with
  | nil => exact h
  | cons change changes ih => exact ih (nodup_applyTo h change)

theorem filter_putActive_eq {p : ActivePeer → Bool} {entry : ActivePeer} {active : List ActivePeer}
    (hnodup : (active.map (·.peer)).Nodup) (hentry : p entry = true)
    (hothers : ∀ a ∈ active, a.peer ≠ entry.peer → p a = false) :
    (putActive entry active).filter p = [entry] := by
  induction active with
  | nil => simp [putActive, hentry]
  | cons a active ih =>
    obtain ⟨hpeer, hactive⟩ := List.nodup_cons.1 hnodup
    obtain ⟨hfirst, hrest⟩ := List.forall_mem_cons.1 hothers
    by_cases he : a.peer = entry.peer
    · have hnone : active.filter p = [] := by
        refine List.filter_eq_nil_iff.2 ?_
        intro other hother
        have hne : other.peer ≠ entry.peer :=
          fun hsame => hpeer (List.mem_map.2 ⟨other, hother, hsame.trans he.symm⟩)
        rw [hrest other hother hne]
        exact Bool.false_ne_true
      rw [putActive, if_pos he, he, List.filter_cons_of_pos hentry, hnone]
    · rw [putActive, if_neg he, List.filter_cons_of_neg (by simp [hfirst he]), ih hactive hrest]

theorem filter_putActive_ne (entry : ActivePeer) (active : List ActivePeer) :
    (putActive entry active).filter (·.peer ≠ entry.peer) =
      active.filter (·.peer ≠ entry.peer) := by
  induction active with
  | nil => simp [putActive]
  | cons a active ih =>
    by_cases he : a.peer = entry.peer
    · simp [putActive, he]
    · rw [putActive, if_neg he, List.filter_cons_of_pos (by simpa using he), ih,
        List.filter_cons_of_pos (by simpa using he)]

namespace State

variable {s : State}

theorem mem_currentPeers {peer : Peer} : peer ∈ s.currentPeers ↔ s.Knows peer := by
  rw [currentPeers, mem_firstOnly, Knows, List.mem_append, List.mem_append, Option.mem_toList,
    List.mem_singleton, or_assoc]
  cases s.role <;> simp

theorem head_currentPeers {leader : Peer} (h : s.leader? = some leader) :
    s.currentPeers.head? = some leader := by
  simp [currentPeers, h, firstOnly]

theorem removeActive_rest (socket : Socket) (s : State) :
    (s.removeActive socket).role = s.role ∧ (s.removeActive socket).view = s.view := by
  unfold removeActive
  split <;> exact ⟨rfl, rfl⟩

theorem coherent_empty : Coherent {} where
  idle _ := ⟨rfl, rfl⟩
  leads _ := rfl
  view := List.nodup_nil
  followers := List.nodup_nil

namespace Coherent

theorem await (h : s.Coherent) (hrole : s.role ≠ .leader) (me : Peer) :
    Coherent { s with me, role := .attemptingJoin } where
  idle _ := h.idle hrole
  leads hlead := by cases hlead
  view := h.view
  followers := h.followers

theorem follow (h : s.Coherent) (hrole : s.role ≠ .leader) (leader you : Peer)
    (members : List Peer) : (s.follow leader you members).Coherent := by
  rw [follow_eq]
  exact {
    idle := fun _ => h.idle hrole
    leads := fun hlead => by cases hlead
    view := nodup_replay _ List.nodup_nil
    followers := h.followers }

theorem lead (h : s.Coherent) : s.lead.Coherent where
  idle hrole := absurd rfl hrole
  leads _ := rfl
  view := List.nodup_nil
  followers := h.followers

theorem applyAll (h : s.Coherent) (hrole : s.role ≠ .leader) (changes : List Change) :
    (s.applyAll changes).Coherent := by
  rw [applyAll_eq]
  exact {
    idle := h.idle
    leads := fun hlead => absurd hlead hrole
    view := nodup_replay changes h.view
    followers := h.followers }

theorem addActive (h : s.Coherent) (hrole : s.role = .leader) (peer : Peer) (socket : Socket) :
    (s.addActive peer socket).Coherent where
  idle hidle := absurd hrole hidle
  leads := h.leads
  view := h.view
  followers := nodup_addActive peer socket h.followers

theorem removeActive (h : s.Coherent) (hrole : s.role = .leader) (socket : Socket) :
    (s.removeActive socket).Coherent := by
  have hfollowers : (s.removeActive socket).followers.Nodup := by
    rcases s.removeActive_cases socket h.followers with hsame | ⟨peer, hleft, -⟩
    · rw [hsame]
      exact h.followers
    · rw [hleft]
      exact h.followers.filter _
  have hrest := s.removeActive_rest socket
  exact {
    idle := fun hidle => absurd (hrest.1.trans hrole) hidle
    leads := fun _ => hrest.2.trans (h.leads hrole)
    view := hrest.2 ▸ h.view
    followers := hfollowers }

theorem takePending (h : s.Coherent) : s.takePending.2.Coherent where
  idle hidle := ⟨(h.idle hidle).1, rfl⟩
  leads := h.leads
  view := h.view
  followers := h.followers

theorem letGo (h : s.Coherent) : Coherent { s with active := [] } where
  idle hidle := ⟨rfl, (h.idle hidle).2⟩
  leads := h.leads
  view := h.view
  followers := List.nodup_nil

end Coherent

/-- What one event may make of a roster. -/
inductive Becomes (d : Delimiters) (s : State) : State → Prop
  | same : Becomes d s s
  | await (hrole : s.role ≠ .leader) (me : Peer) :
      Becomes d s { s with me, role := .attemptingJoin }
  | follow (hrole : s.role ≠ .leader) (leader you : Peer) (members : List Peer) :
      Becomes d s (s.follow leader you members)
  | lead : Becomes d s s.lead
  | hear (hrole : s.role ≠ .leader) (changes : List Change) : Becomes d s (s.applyAll changes)
  /-- Nobody comes to follow a leader but by asking for it. -/
  | takeIn (hrole : s.role = .leader) {body : Bytes} {remote : Net.Endpoint} {peer : Peer}
      (hpeer : joinerIdentity d body remote = some peer) (socket : Socket) :
      Becomes d s (s.addActive peer socket)
  | drop (hrole : s.role = .leader) (socket : Socket) : Becomes d s (s.removeActive socket)
  | tell : Becomes d s s.takePending.2
  | letGo : Becomes d s { s with active := [] }

namespace Becomes

variable {d : Delimiters} {left : State}

theorem coherent (h : s.Becomes d left) (hs : s.Coherent) : left.Coherent := by
  cases h with
  | same => exact hs
  | await hrole me => exact hs.await hrole me
  | follow hrole leader you members => exact hs.follow hrole leader you members
  | lead => exact hs.lead
  | hear hrole changes => exact hs.applyAll hrole changes
  | takeIn hrole hpeer socket => exact hs.addActive hrole _ socket
  | drop hrole socket => exact hs.removeActive hrole socket
  | tell => exact hs.takePending
  | letGo => exact hs.letGo

theorem still_leads (h : s.Becomes d left) (hlead : s.role = .leader) : left.role = .leader := by
  cases h with
  | await hrole me => exact absurd hlead hrole
  | follow hrole leader you members => exact absurd hlead hrole
  | lead => rfl
  | hear hrole changes => exact absurd hlead hrole
  | drop hrole socket => exact (s.removeActive_rest socket).1.trans hlead
  | _ => exact hlead

theorem followers (h : s.Becomes d left) {peer : Peer} (hpeer : peer ∈ left.followers) :
    peer ∈ s.followers ∨ ∃ body remote, joinerIdentity d body remote = some peer := by
  cases h with
  | follow hrole leader you members =>
    rw [follow_eq] at hpeer
    exact .inl hpeer
  | hear hrole changes =>
    rw [applyAll_eq] at hpeer
    exact .inl hpeer
  | takeIn hrole hjoined socket =>
    rw [followers_addActive] at hpeer
    split at hpeer
    · exact .inl hpeer
    · refine (List.mem_append.1 hpeer).imp_right fun hnew => ?_
      rw [List.mem_singleton.1 hnew]
      exact ⟨_, _, hjoined⟩
  | drop hrole socket => exact .inl (List.map_subset _ (s.active_removeActive_subset socket) hpeer)
  | letGo => cases hpeer
  | _ => exact .inl hpeer

end Becomes
end State

end CrawlCluster.Roster
