import CrawlCluster.Store.Lemmas
import Mathlib.Data.List.Basic

/-!
The queue of the store as a queue: whatever its entries are, each comes before all those behind it,
by the priority it was stored with or, where they tie, by having entered sooner.
-/

set_option autoImplicit false

namespace CrawlCluster

namespace Queued

variable {a b c : Queued}

theorem precedes_iff : a.precedes b = true ↔ a.job.priority < b.job.priority ∨
    (a.job.priority = b.job.priority ∧ a.seq < b.seq) := by
  simp [precedes]

theorem precedes_trans (hab : a.precedes b = true) (hbc : b.precedes c = true) :
    a.precedes c = true := by
  rw [precedes_iff] at *
  rcases hab with hab | ⟨hab, hab'⟩ <;> rcases hbc with hbc | ⟨hbc, hbc'⟩
  · exact .inl (Int64.lt_trans hab hbc)
  · exact .inl (hbc ▸ hab)
  · exact .inl (hab ▸ hbc)
  · exact .inr ⟨hab.trans hbc, Nat.lt_trans hab' hbc'⟩

theorem precedes_of_not (hne : a.seq ≠ b.seq) (h : a.precedes b = false) :
    b.precedes a = true := by
  have hn : ¬a.precedes b = true := by simp [h]
  rw [precedes_iff, not_or, Int64.not_lt] at hn
  rw [precedes_iff]
  rcases Int64.lt_or_eq_of_le hn.1 with hlt | heq
  · exact .inl hlt
  · have hseq : ¬a.seq < b.seq := fun hlt => hn.2 ⟨heq.symm, hlt⟩
    exact .inr ⟨heq, by omega⟩

theorem not_precedes (h : a.precedes b = true) : b.precedes a = false := by
  rw [← Bool.not_eq_true]
  intro hba
  have haa := precedes_trans h hba
  rw [precedes_iff] at haa
  rcases haa with haa | haa
  · exact Int64.lt_irrefl haa
  · exact Nat.lt_irrefl _ haa.2

end Queued

namespace Store

def Sorted (queue : List Queued) : Prop := queue.Pairwise fun a b => a.precedes b = true

theorem sorted_insertQueued {entry : Queued} {queue : List Queued} (h : Sorted queue)
    (hseq : ∀ q ∈ queue, entry.seq ≠ q.seq) : Sorted (insertQueued entry queue) := by
  induction queue with
  | nil => exact List.pairwise_singleton _ _
  | cons q queue ih =>
    obtain ⟨hq, hqueue⟩ := List.pairwise_cons.1 h
    rw [insertQueued]
    split
    · next hbefore =>
      refine List.pairwise_cons.2 ⟨?_, h⟩
      intro other hother
      rcases List.mem_cons.1 hother with rfl | hother
      · exact hbefore
      · exact Queued.precedes_trans hbefore (hq other hother)
    · next hbehind =>
      refine List.pairwise_cons.2 ⟨?_, ih hqueue fun r hr => hseq r (List.mem_cons_of_mem _ hr)⟩
      intro other hother
      rcases List.mem_cons.1 ((insertQueued_perm entry queue).mem_iff.1 hother) with rfl | hother
      · exact Queued.precedes_of_not (hseq q (List.mem_cons_self ..)) (by simpa using hbehind)
      · exact hq other hother

/-- The queue stands in serving order, and what it holds was numbered as it entered. -/
structure Lined (s : Store) : Prop where
  sorted : Sorted s.queue
  named : ∀ q ∈ s.queue, q.job.id = jobId q.seq
  numbered : ∀ q ∈ s.queue, q.seq < s.nextSeq

theorem lined_empty : Lined {} := ⟨List.Pairwise.nil, by simp, by simp⟩

theorem Lined.keep {s left : Store} (h : s.Lined) (hqueue : left.queue.Sublist s.queue)
    (hseq : left.nextSeq = s.nextSeq) : left.Lined where
  sorted := h.sorted.sublist hqueue
  named q hq := h.named q (hqueue.subset hq)
  numbered q hq := hseq ▸ h.numbered q (hqueue.subset hq)

theorem Lined.enqueue {s : Store} (h : s.Lined) (now : Int64) (entry : Enqueue) :
    (s.enqueue now entry).Lined where
  sorted := sorted_insertQueued h.sorted fun q hq => Nat.ne_of_gt (h.numbered q hq)
  named := by
    intro q hq
    rcases List.mem_cons.1 ((insertQueued_perm _ s.queue).mem_iff.1 hq) with rfl | hq
    · rfl
    · exact h.named q hq
  numbered := by
    intro q hq
    rcases List.mem_cons.1 ((insertQueued_perm _ s.queue).mem_iff.1 hq) with rfl | hq
    · exact Nat.lt_succ_self _
    · exact Nat.lt_succ_of_lt (h.numbered q hq)

theorem Lined.front {s : Store} {q : Queued} {rest : List Queued} (h : s.Lined)
    (hqueue : s.queue = q :: rest) : ∀ other ∈ rest, q.precedes other = true :=
  (List.pairwise_cons.1 (hqueue ▸ h.sorted)).1

def numbered {α : Type} (row : (seq : Nat) → α → Queued) : (seq : Nat) → List α → List Queued
  | _, [] => []
  | seq, item :: items => row seq item :: numbered row (seq + 1) items

theorem perm_numbered_cons {α : Type} {row : Nat → α → Queued} {seq : Nat} {item : α}
    {items : List α} {queue next left : List Queued} (hfirst : next.Perm (row seq item :: queue))
    (hrest : left.Perm (numbered row (seq + 1) items ++ next)) :
    left.Perm (numbered row seq (item :: items) ++ queue) :=
  hrest.trans ((hfirst.append_left _).trans List.perm_middle)

end Store
end CrawlCluster
