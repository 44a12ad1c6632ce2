import CrawlCluster.Roster.Lemmas

/-!
Changes replayed on a view that may reflect them already. Main statement: `Replays`, which every
operation of a leader keeps: whoever was not removed meanwhile stays where the view has it, and
whoever was removed and came back goes behind, in the order the leader has.
-/

set_option autoImplicit false

namespace CrawlCluster.Roster

def Change.removed? : Change → Option Peer
  | .removed peer => some peer
  | .added _ => none

def removals (changes : List Change) : List Peer := changes.filterMap Change.removed?

def replay (changes : List Change) (view : List Peer) : List Peer :=
  changes.foldl Change.applyTo view

/-- Changes are about the view and leave the rest alone. -/
theorem applyAll_eq (changes : List Change) (s : State) :
    s.applyAll changes = { s with view := replay changes s.view } := by
  induction changes generalizing s with
  | nil => rfl
  | cons change changes ih => exact ih (s.apply change)

theorem view_applyAll (changes : List Change) (s : State) :
    (s.applyAll changes).view = replay changes s.view := by
  rw [applyAll_eq]

theorem follow_eq (leader you : Peer) (members : List Peer) (s : State) :
    s.follow leader you members = { s with
      role := .follower leader
      me := you
      view := replay ((members ++ [you]).map .added) [] } := applyAll_eq ..

theorem replay_append (changes more : List Change) (view : List Peer) :
    replay (changes ++ more) view = replay more (replay changes view) := List.foldl_append

theorem removals_added (changes : List Change) (peer : Peer) :
    removals (changes ++ [.added peer]) = removals changes := by
  simp [removals, Change.removed?]

theorem mem_removals_removed {changes : List Change} {peer p : Peer} :
    p ∈ removals (changes ++ [.removed peer]) ↔ p ∈ removals changes ∨ p = peer := by
  simp [removals, Change.removed?]

theorem filter_applyTo (change : Change) (peer : Peer) (view : List Peer) :
    (change.applyTo view).filter (· ≠ peer) =
      (change.applyTo (view.filter (· ≠ peer))).filter (· ≠ peer) := by
  cases change with
  | removed other =>
    simp only [Change.applyTo, List.filter_filter]
    refine List.filter_congr ?_
    intro p _
    by_cases hp : p = peer <;> simp [hp]
  | added other =>
    by_cases hother : other = peer
    · subst hother
      simp only [Change.applyTo]
      by_cases hmem : other ∈ view <;> simp [hmem, List.filter_filter]
    · simp only [Change.applyTo]
      by_cases hmem : other ∈ view <;> simp [hmem, hother, List.filter_filter]

theorem filter_replay (changes : List Change) (peer : Peer) (view : List Peer) :
    (replay changes view).filter (· ≠ peer) =
      (replay changes (view.filter (· ≠ peer))).filter (· ≠ peer) := by
  induction changes generalizing view with
  | nil => simp [replay, List.filter_filter]
  | cons change changes ih =>
    calc (replay changes (change.applyTo view)).filter (· ≠ peer)
        = (replay changes ((change.applyTo view).filter (· ≠ peer))).filter (· ≠ peer) := ih _
      _ = (replay changes ((change.applyTo (view.filter (· ≠ peer))).filter (· ≠ peer))).filter
            (· ≠ peer) := by rw [filter_applyTo]
      _ = (replay changes (change.applyTo (view.filter (· ≠ peer)))).filter (· ≠ peer) :=
            (ih _).symm

theorem nodup_moveToEnd {view : List Peer} (h : view.Nodup) (peer : Peer) :
    (view.filter (· ≠ peer) ++ [peer]).Nodup := by
  refine List.nodup_append.2 ⟨List.Pairwise.filter _ h, List.pairwise_singleton _ _, ?_⟩
  intro a ha b hb
  rw [List.mem_singleton.1 hb]
  simpa using (List.mem_filter.1 ha).2

def Replays (members : List Peer) (changes : List Change) : Prop :=
  ∀ view : List Peer, view.Nodup → members ⊆ view → replay changes view =
    view.filter (· ∉ removals changes) ++ members.filter (· ∈ removals changes)

namespace Replays

variable {members : List Peer} {changes : List Change} {peer : Peer}

theorem nil (members : List Peer) : Replays members [] := by
  intro view _ _
  have hview : view.filter (· ∉ removals []) = view := List.filter_eq_self.2 (by simp [removals])
  have hmembers : members.filter (· ∈ removals []) = [] :=
    List.filter_eq_nil_iff.2 (by simp [removals])
  rw [hview, hmembers, List.append_nil]
  rfl

theorem mem_replay (h : Replays members changes) {view : List Peer} (hnodup : view.Nodup)
    (hsub : members ⊆ view) {p : Peer} :
    p ∈ replay changes view ↔ p ∈ members ∨ (p ∈ view ∧ p ∉ removals changes) := by
  rw [h view hnodup hsub, List.mem_append, List.mem_filter, List.mem_filter, decide_eq_true_eq,
    decide_eq_true_eq]
  constructor
  · rintro (hp | hp)
    · exact .inr hp
    · exact .inl hp.1
  · rintro (hp | hp)
    · by_cases hgone : p ∈ removals changes
      · exact .inr ⟨hp, hgone⟩
      · exact .inl ⟨hsub hp, hgone⟩
    · exact .inl hp

theorem join (h : Replays members changes) (hpeer : peer ∉ members) :
    Replays (members ++ [peer]) (changes ++ [.added peer]) := by
  intro view hnodup hsub
  have hsub' : members ⊆ view := fun p hp => hsub (List.mem_append_left _ hp)
  have hview : peer ∈ view := hsub (List.mem_append_right _ (List.mem_singleton_self _))
  have hmem := h.mem_replay hnodup hsub' (p := peer)
  rw [replay_append, removals_added, List.filter_append, ← List.append_assoc, ← h view hnodup hsub']
  show Change.applyTo (replay changes view) (.added peer) = _
  rw [Change.applyTo]
  by_cases hgone : peer ∈ removals changes
  · simp [hmem, hpeer, hgone]
  · simp [hmem, hview, hgone]

theorem rejoin (h : Replays members changes) (hpeer : peer ∈ members) :
    Replays members (changes ++ [.added peer]) := by
  intro view hnodup hsub
  have hmem := (h.mem_replay hnodup hsub).2 (.inl hpeer)
  rw [replay_append, removals_added, ← h view hnodup hsub]
  exact if_pos hmem

theorem leave (h : Replays members changes) (peer : Peer) :
    Replays (members.filter (· ≠ peer)) (changes ++ [.removed peer]) := by
  intro view hnodup hsub
  rw [replay_append]
  show (replay changes view).filter (· ≠ peer) = _
  have hothers : members.filter (· ≠ peer) ⊆ view.filter (· ≠ peer) := by
    intro p hp
    have hne := (List.mem_filter.1 hp).2
    exact List.mem_filter.2 ⟨hsub hp, hne⟩
  -- the view may lack the peer that leaves, but then it makes no difference if it had it
  have hnodup' := nodup_moveToEnd hnodup peer
  have hsub' : members ⊆ view.filter (· ≠ peer) ++ [peer] := by
    intro p hp
    by_cases hne : p = peer
    · simp [hne]
    · exact List.mem_append_left _ (hothers (List.mem_filter.2 ⟨hp, by simpa using hne⟩))
  have hsame : (view.filter (· ≠ peer) ++ [peer]).filter (· ≠ peer) = view.filter (· ≠ peer) := by
    simp [List.filter_filter]
  rw [filter_replay, ← hsame, ← filter_replay, h _ hnodup' hsub', List.filter_append]
  congr 1
  · rw [List.filter_filter, List.filter_append, List.filter_filter]
    have hlast : [peer].filter
        (fun p => decide (p ≠ peer) && decide (p ∉ removals changes)) = [] := by simp
    rw [hlast, List.append_nil]
    refine List.filter_congr ?_
    intro p _
    by_cases hp : p = peer <;> simp [mem_removals_removed, hp]
  · rw [List.filter_filter, List.filter_filter]
    refine List.filter_congr ?_
    intro p _
    by_cases hp : p = peer <;> simp [mem_removals_removed, hp]

end Replays

end CrawlCluster.Roster
