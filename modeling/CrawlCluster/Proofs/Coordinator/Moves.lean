import CrawlCluster.Coordinator.Operations
import CrawlCluster.Proofs.Store.Table

/-!
The moves jobs make through a store: they are taken in, leased, renewed, and their leases retired,
with or without a new try. Main statements: ids stay distinct and are never given twice, and no
job is lost or doubled on the way.
-/

set_option autoImplicit false

namespace CrawlCluster

namespace Store

def ids (s : Store) : List String := s.queue.map (·.job.id) ++ s.current.map (·.id)

/-- Every job has an id of its own, and none that is still to be given. -/
structure Distinct (s : Store) : Prop where
  ordered : Ordered s.current
  nodup : s.ids.Nodup
  issued : ∀ id ∈ s.ids, ∃ n < s.nextSeq, id = jobId n

theorem distinct_empty : Distinct {} :=
  ⟨List.Pairwise.nil, List.nodup_nil, by simp [ids]⟩

theorem Distinct.fresh {s : Store} (h : s.Distinct) : jobId s.nextSeq ∉ s.ids := by
  intro hmem
  obtain ⟨n, hn, he⟩ := h.issued _ hmem
  exact absurd (jobId_injective he) (by omega)

theorem ids_enqueue (now : Int64) (entry : Enqueue) (s : Store) :
    (s.enqueue now entry).ids.Perm (jobId s.nextSeq :: s.ids) :=
  ((insertQueued_perm _ s.queue).map (·.job.id)).append_right _

theorem ids_grant_of_mem (now : Int64) {job : Job} {s : Store} (h : Ordered s.current)
    (hmem : job.id ∈ s.current.map (·.id)) : (s.grant now job).ids = s.ids := by
  have hrow : (putLease { job with leaseTime := s.grantTime now } s.current).map (·.id) =
      s.current.map (·.id) := ids_putLease_of_mem h hmem
  simp only [ids, grant, hrow]

theorem ids_grant_of_not_mem {now : Int64} {job : Job} {s : Store}
    (hmem : job.id ∉ s.current.map (·.id)) : (s.grant now job).ids.Perm (job.id :: s.ids) := by
  have hrow : ((putLease { job with leaseTime := s.grantTime now } s.current).map (·.id)).Perm
      (job.id :: s.current.map (·.id)) := ids_putLease_of_not_mem hmem
  exact (hrow.append_left _).trans List.perm_middle

theorem perm_retire {job : Job} {table : List Job} (h : (table.map (·.id)).Nodup)
    (hmem : job ∈ table) : table.Perm (job :: table.filter (·.id != job.id)) := by
  induction table with
  | nil => simp at hmem
  | cons row table ih =>
    obtain ⟨hrow, htable⟩ := List.nodup_cons.1 h
    rcases List.mem_cons.1 hmem with rfl | hmem
    · have hothers : table.filter (·.id != job.id) = table := by
        refine List.filter_eq_self.2 ?_
        intro other hother
        have hne : other.id ≠ job.id := fun he => hrow (List.mem_map.2 ⟨other, hother, he⟩)
        simpa using hne
      simp [hothers]
    · have hne : row.id ≠ job.id := fun he => hrow (List.mem_map.2 ⟨job, hmem, he.symm⟩)
      rw [List.filter_cons_of_pos (by simpa using hne)]
      exact ((ih htable hmem).cons row).trans (.swap job row _)

theorem ids_retire {job : Job} {s : Store} (h : Ordered s.current)
    (hjob : s.leased? job.id = some job) : s.ids.Perm (job.id :: (s.retire job.id).ids) := by
  have hmem := ((leased?_eq_some_iff h).1 hjob).1
  have hrows := (perm_retire h.nodup hmem).map (·.id)
  exact (hrows.append_left _).trans List.perm_middle

/-- How the ids of a store relate to those of the same store later on. -/
structure Precedes (s left : Store) : Prop where
  nextSeq_le : s.nextSeq ≤ left.nextSeq
  given : ∀ id ∈ left.ids, id ∈ s.ids ∨ ∃ n, s.nextSeq ≤ n ∧ id = jobId n

theorem Precedes.refl (s : Store) : s.Precedes s := ⟨Nat.le_refl _, fun _ => .inl⟩

theorem Precedes.trans {s next left : Store} (h : s.Precedes next) (h' : next.Precedes left) :
    s.Precedes left where
  nextSeq_le := Nat.le_trans h.nextSeq_le h'.nextSeq_le
  given := by
    intro id hid
    rcases h'.given id hid with hid | ⟨n, hn, he⟩
    · exact h.given id hid
    · exact .inr ⟨n, Nat.le_trans h.nextSeq_le hn, he⟩

/-- An id that was given and is gone does not come back. -/
theorem Precedes.gone {s next left : Store} {id : String} (hs : s.Distinct)
    (h : s.Precedes next) (h' : next.Precedes left) (hid : id ∈ s.ids) (hgone : id ∉ next.ids) :
    id ∉ left.ids := by
  intro hback
  obtain ⟨m, hm, rfl⟩ := hs.issued id hid
  rcases h'.given _ hback with hnext | ⟨n, hn, he⟩
  · exact hgone hnext
  · have hmn := jobId_injective he
    have hle := h.nextSeq_le
    omega

theorem Distinct.enqueue {s : Store} (h : s.Distinct) (now : Int64) (entry : Enqueue) :
    (s.enqueue now entry).Distinct ∧ s.Precedes (s.enqueue now entry) := by
  have hids := ids_enqueue now entry s
  have hnext : (s.enqueue now entry).nextSeq = s.nextSeq + 1 := rfl
  refine ⟨⟨h.ordered, hids.nodup_iff.2 (List.nodup_cons.2 ⟨h.fresh, h.nodup⟩), ?_⟩, by omega, ?_⟩
  · intro id hid
    rcases List.mem_cons.1 (hids.mem_iff.1 hid) with rfl | hid
    · exact ⟨s.nextSeq, by omega, rfl⟩
    · obtain ⟨n, hn, he⟩ := h.issued id hid
      exact ⟨n, by omega, he⟩
  · intro id hid
    rcases List.mem_cons.1 (hids.mem_iff.1 hid) with rfl | hid
    · exact .inr ⟨s.nextSeq, Nat.le_refl _, rfl⟩
    · exact .inl hid

theorem Distinct.keep {s left : Store} (h : s.Distinct) (gone : List String)
    (hordered : Ordered left.current) (hnext : left.nextSeq = s.nextSeq)
    (hids : s.ids.Perm (gone ++ left.ids)) : left.Distinct ∧ s.Precedes left := by
  have hmem : ∀ id ∈ left.ids, id ∈ s.ids := fun id hid =>
    hids.mem_iff.2 (List.mem_append_right gone hid)
  refine ⟨⟨hordered, (List.nodup_append.1 (hids.nodup_iff.1 h.nodup)).2.1, ?_⟩, by omega, ?_⟩
  · intro id hid
    rw [hnext]
    exact h.issued id (hmem id hid)
  · intro id hid
    exact .inl (hmem id hid)

theorem Distinct.retire {s : Store} {job : Job} (h : s.Distinct)
    (hjob : s.leased? job.id = some job) :
    (s.retire job.id).Distinct ∧ s.Precedes (s.retire job.id) :=
  h.keep [job.id] (h.ordered.filter _) rfl (ids_retire h.ordered hjob)

theorem Distinct.recordFailure {s : Store} (h : s.Distinct) (failed : FailedJob) :
    (s.recordFailure failed).Distinct ∧ s.Precedes (s.recordFailure failed) :=
  h.keep [] h.ordered rfl (.refl _)

theorem Distinct.grant_of_mem {s : Store} {job : Job} (h : s.Distinct) (now : Int64)
    (hmem : job.id ∈ s.current.map (·.id)) :
    (s.grant now job).Distinct ∧ s.Precedes (s.grant now job) :=
  h.keep [] (ordered_putLease h.ordered) rfl (by simp [ids_grant_of_mem now h.ordered hmem])

theorem Distinct.regrant {s : Store} {job : Job} (h : s.Distinct) (now : Int64)
    (hjob : s.leased? job.id = some job) :
    (s.grant now job).Distinct ∧ s.Precedes (s.grant now job) :=
  h.grant_of_mem now (List.mem_map_of_mem ((leased?_eq_some_iff h.ordered).1 hjob).1)

theorem Distinct.takeTop_grant {s : Store} {q : Queued} {queue : List Queued} (h : s.Distinct)
    (hqueue : s.queue = q :: queue) (now : Int64) :
    s.ids.Perm (({ s with queue }.grant now q.job).ids) := by
  have hids : s.ids = q.job.id :: ({ s with queue } : Store).ids := by simp [ids, hqueue]
  have hnodup := h.nodup
  rw [hids, List.nodup_cons] at hnodup
  rw [hids]
  refine (ids_grant_of_not_mem ?_).symm
  intro hmem
  exact hnodup.1 (List.mem_append_right _ hmem)

theorem Distinct.lease {s : Store} {q : Queued} {queue : List Queued} (h : s.Distinct)
    (hqueue : s.queue = q :: queue) (now : Int64) :
    (({ s with queue } : Store).grant now q.job).Distinct ∧
      s.Precedes (({ s with queue } : Store).grant now q.job) :=
  h.keep [] (ordered_putLease h.ordered) rfl (h.takeTop_grant hqueue now)

end Store

namespace Coordinator

def Settings.retries (s : Settings) (failed : FailedJob) : Bool :=
  failed.job.retries < s.maxRetries && failed.outcome.isRetriable

/-- What can happen to a job, and, once, to the crawl id. -/
inductive Move where
  | adopt (crawlId : Int32)
  | enter (job : NewJob)
  | lease (job : Job) (leaseTime : Int64)
  | renew (job : Job) (leaseTime : Int64)
  | finish (job : Job)
  | fail (failed : FailedJob)
  deriving DecidableEq, Repr

inductive Moved (s : Settings) : Move → Store → Store → Prop where
  | adopt (crawlId : Int32) (store : Store) :
    Moved s (.adopt crawlId) store { store with crawlId }
  | enter (now : Int64) (job : NewJob) (store : Store) :
    Moved s (.enter job) store (store.enqueue now (newEntry s job))
  | lease (now : Int64) {q : Queued} {queue : List Queued} {store : Store}
    (hqueue : store.queue = q :: queue) :
    Moved s (.lease q.job (store.grantTime now)) store ({ store with queue }.grant now q.job)
  | renew (now : Int64) {job : Job} {store : Store} (hjob : store.leased? job.id = some job) :
    Moved s (.renew job (store.grantTime now)) store (store.grant now job)
  | finish {job : Job} {store : Store} (hjob : store.leased? job.id = some job) :
    Moved s (.finish job) store (store.retire job.id)
  | drop {failed : FailedJob} {store : Store}
    (hjob : store.leased? failed.job.id = some failed.job) (hretries : s.retries failed = false) :
    Moved s (.fail failed) store ((store.recordFailure failed).retire failed.job.id)
  | retry (now : Int64) {failed : FailedJob} {store : Store}
    (hjob : store.leased? failed.job.id = some failed.job) (hretries : s.retries failed = true) :
    Moved s (.fail failed) store (((store.recordFailure failed).enqueue now
      (returnEntry failed.job (failed.job.retries + 1))).retire failed.job.id)

inductive Moves (s : Settings) : List Move → Store → Store → Prop where
  | nil (store : Store) : Moves s [] store store
  | cons {move : Move} {moves : List Move} {store next left : Store}
    (first : Moved s move store next) (rest : Moves s moves next left) :
    Moves s (move :: moves) store left

theorem Moved.moves {s : Settings} {move : Move} {store left : Store}
    (h : Moved s move store left) : Moves s [move] store left := .cons h (.nil left)

theorem Moves.append {s : Settings} {moves more : List Move} {store next left : Store}
    (h : Moves s moves store next) (h' : Moves s more next left) :
    Moves s (moves ++ more) store left := by
  induction h with
  | nil store => exact h'
  | cons first rest ih => exact .cons first (ih h')

def overdue (job : Job) : FailedJob := { job, outcome := .timeout, detail := "" }

theorem retries_overdue (s : Settings) (job : Job) :
    s.retries (overdue job) = decide (job.retries < s.maxRetries) := Bool.and_true _

variable {s : Settings}

def Move.isIntake : Move → Bool
  | .adopt _ | .enter _ => true
  | .lease .. | .renew .. | .finish _ | .fail _ => false

theorem Moves.current_of_intake {moves : List Move} {store left : Store}
    (h : Moves s moves store left) (hintake : ∀ move ∈ moves, move.isIntake = true) :
    left.current = store.current ∧ left.lastLease = store.lastLease := by
  induction h with
  | nil store => exact ⟨rfl, rfl⟩
  | cons first rest ih =>
    obtain ⟨hcurrent, hlast⟩ := ih fun move hmove => hintake move (List.mem_cons_of_mem _ hmove)
    have hfirst := hintake _ (List.mem_cons_self ..)
    cases first with
    | adopt => exact ⟨hcurrent, hlast⟩
    | enter => exact ⟨hcurrent, hlast⟩
    | _ => simp [Move.isIntake] at hfirst

theorem Moved.leased?_of_fail {failed : FailedJob} {store left : Store}
    (h : Moved s (.fail failed) store left) (id : String) :
    left.leased? id = if id = failed.job.id then none else store.leased? id := by
  cases h <;> exact Store.leased?_retire _ id _

theorem Moves.leased?_of_fail {failures : List FailedJob} {store left : Store}
    (h : Moves s (failures.map .fail) store left) (id : String) :
    left.leased? id = if id ∈ failures.map (·.job.id) then none else store.leased? id := by
  induction failures generalizing store with
  | nil =>
    cases h
    simp
  | cons failed failures ih =>
    cases h with
    | cons first rest =>
      rw [ih rest, first.leased?_of_fail]
      by_cases hid : id = failed.job.id
      · simp [hid]
      · simp [hid]

theorem Moved.lastLease_of_fail {failed : FailedJob} {store left : Store}
    (h : Moved s (.fail failed) store left) : left.lastLease = store.lastLease := by
  cases h <;> rfl

theorem Moves.lastLease_of_fail {failures : List FailedJob} {store left : Store}
    (h : Moves s (failures.map .fail) store left) : left.lastLease = store.lastLease := by
  induction failures generalizing store with
  | nil =>
    cases h
    rfl
  | cons failed failures ih =>
    cases h with
    | cons first rest =>
      rw [ih rest, first.lastLease_of_fail]

theorem Moved.distinct {move : Move} {store left : Store} (h : Moved s move store left)
    (hd : store.Distinct) : left.Distinct ∧ store.Precedes left := by
  cases h with
  | adopt crawlId => exact hd.keep [] hd.ordered rfl (.refl _)
  | enter now job => exact hd.enqueue now _
  | lease now hqueue => exact hd.lease hqueue now
  | renew now hjob => exact hd.regrant now hjob
  | finish hjob => exact hd.retire hjob
  | @drop failed _ hjob =>
    obtain ⟨hd₁, hp₁⟩ := hd.recordFailure failed
    obtain ⟨hd₂, hp₂⟩ := hd₁.retire hjob
    exact ⟨hd₂, hp₁.trans hp₂⟩
  | @retry now failed _ hjob =>
    obtain ⟨hd₁, hp₁⟩ := hd.recordFailure failed
    obtain ⟨hd₂, hp₂⟩ := hd₁.enqueue now (returnEntry failed.job (failed.job.retries + 1))
    obtain ⟨hd₃, hp₃⟩ := hd₂.retire hjob
    exact ⟨hd₃, (hp₁.trans hp₂).trans hp₃⟩

theorem Moves.distinct {moves : List Move} {store left : Store} (h : Moves s moves store left)
    (hd : store.Distinct) : left.Distinct ∧ store.Precedes left := by
  induction h with
  | nil store => exact ⟨hd, .refl store⟩
  | cons first rest ih =>
    obtain ⟨hd₁, hp₁⟩ := first.distinct hd
    obtain ⟨hd₂, hp₂⟩ := ih hd₁
    exact ⟨hd₂, hp₁.trans hp₂⟩

end Coordinator
end CrawlCluster
