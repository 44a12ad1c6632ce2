import CrawlCluster.Roster.State

set_option autoImplicit false

namespace CrawlCluster.Roster

@[simp] theorem mem_firstOnly {α : Type} [DecidableEq α] {x : α} {xs : List α} :
    x ∈ firstOnly xs ↔ x ∈ xs := by
  induction xs with
  | nil => simp [firstOnly]
  | cons y xs ih =>
    by_cases h : x = y
    · simp [firstOnly, h]
    · simp [firstOnly, h, ih]

@[simp]
theorem nodup_firstOnly {α : Type} [DecidableEq α] (xs : List α) : (firstOnly xs).Nodup := by
  induction xs with
  | nil => exact .nil
  | cons x xs ih =>
    rw [firstOnly, List.nodup_cons]
    exact ⟨by simp, List.Pairwise.filter _ ih⟩

@[simp] theorem nodup_currentPeers (s : State) : s.currentPeers.Nodup := nodup_firstOnly _

@[simp] theorem me_mem_currentPeers (s : State) : s.me ∈ s.currentPeers := by
  simp [State.currentPeers]

theorem nodup_applyTo {view : List Peer} (h : view.Nodup) (change : Change) :
    (change.applyTo view).Nodup := by
  cases change with
  | added peer =>
    rw [Change.applyTo]
    split
    · exact h
    · next hp =>
      rw [List.nodup_append]
      exact ⟨h, by simp, fun a ha b hb => by
        rw [List.mem_singleton.1 hb]
        exact fun e => hp (e ▸ ha)⟩
  | removed peer => exact List.Pairwise.filter _ h

theorem peers_putActive (entry : ActivePeer) (active : List ActivePeer) :
    (putActive entry active).map (·.peer) =
      if entry.peer ∈ active.map (·.peer) then active.map (·.peer)
      else active.map (·.peer) ++ [entry.peer] := by
  induction active with
  | nil => simp [putActive]
  | cons a active ih =>
    by_cases h : a.peer = entry.peer
    · simp [putActive, h]
    · rw [putActive, if_neg h, List.map_cons, ih]
      by_cases hm : entry.peer ∈ active.map (·.peer)
      · rw [if_pos hm, if_pos (by simp [hm]), List.map_cons]
      · rw [if_neg hm, if_neg (by simpa [Ne.symm h] using hm), List.map_cons, List.cons_append]

theorem putActive_of_not_mem {entry : ActivePeer} {active : List ActivePeer}
    (h : entry.peer ∉ active.map (·.peer)) : putActive entry active = active ++ [entry] := by
  induction active with
  | nil => rfl
  | cons a active ih =>
    rw [List.map_cons, List.mem_cons, not_or] at h
    rw [putActive, if_neg fun he => h.1 he.symm, ih h.2, List.cons_append]

/-- The follower taken is the first on its socket, and the others keep their order. -/
theorem takeActive_eq_some {socket : Socket} {active rest : List ActivePeer} {peer : Peer}
    (h : takeActive socket active = some (peer, rest)) :
    ∃ front back, active = front ++ ⟨peer, socket⟩ :: back ∧ rest = front ++ back ∧
      ∀ a ∈ front, a.socket ≠ socket := by
  induction active generalizing rest with
  | nil => simp [takeActive] at h
  | cons a active ih =>
    rw [takeActive] at h
    split at h
    · next hs =>
      obtain ⟨rfl, rfl⟩ := Prod.mk.inj (Option.some.inj h)
      exact ⟨[], active, by simp [← hs], rfl, by simp⟩
    · next hs =>
      obtain ⟨⟨p, r⟩, hr, he⟩ := Option.map_eq_some_iff.1 h
      obtain ⟨rfl, rfl⟩ := Prod.mk.inj he
      obtain ⟨front, back, rfl, rfl, hf⟩ := ih hr
      exact ⟨a :: front, back, rfl, rfl, by simpa using ⟨hs, hf⟩⟩

end CrawlCluster.Roster
