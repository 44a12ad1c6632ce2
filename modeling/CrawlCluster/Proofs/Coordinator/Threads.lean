import CrawlCluster.Proofs.Coordinator.Moves

/-!
A job followed through its tries. Each time it is put back it gets a new id, so what is followed
is a thread: the ids the job has had, and the failures recorded for it on the way. Main statement:
`Moves.woven`, that threads woven along the moves of a store tell for every id whose it is, and
keep the account of each job.
-/

set_option autoImplicit false

namespace CrawlCluster

structure Work where
  url : String
  timeout : Int64
  priority : Int64
  deriving DecidableEq, Repr

def Job.work (job : Job) : Work := ⟨job.url, job.timeout, job.priority⟩

def Job.unleased (job : Job) : Job := { job with leaseTime := 0 }

def Enqueue.work (now : Int64) (entry : Enqueue) : Work :=
  ⟨entry.url, entry.timeout, Store.storedPriority now entry⟩

namespace Store

def jobs (s : Store) : List Job := s.queue.map (·.job) ++ s.current

def rows (s : Store) : List Job := s.jobs.map Job.unleased

def entered (now : Int64) (entry : Enqueue) (s : Store) : Job :=
  { id := jobId s.nextSeq, timeout := entry.timeout, priority := storedPriority now entry,
    url := entry.url, retries := entry.retries }

theorem map_id_jobs (s : Store) : s.jobs.map (·.id) = s.ids := by
  simp [jobs, ids]

theorem map_id_rows (s : Store) : s.rows.map (·.id) = s.ids := by
  rw [← map_id_jobs, rows, List.map_map]
  rfl

theorem putLease_perm {job : Job} {table : List Job} (h : Ordered table) :
    (putLease job table).Perm (job :: table.filter (·.id != job.id)) := by
  have hrows : (job :: table.filter (·.id != job.id)).Nodup := by
    refine List.nodup_cons.2 ⟨by simp, ?_⟩
    exact (List.Nodup.of_map _ h.nodup).filter _
  refine (List.perm_ext_iff_of_nodup (List.Nodup.of_map _ (ordered_putLease h).nodup) hrows).2 ?_
  intro row
  rw [mem_putLease h]
  simp

theorem rows_enqueue (now : Int64) (entry : Enqueue) (s : Store) :
    (s.enqueue now entry).rows.Perm (s.entered now entry :: s.rows) :=
  (((insertQueued_perm ⟨s.nextSeq, s.entered now entry⟩ s.queue).map Queued.job).append_right
    s.current).map Job.unleased

theorem rows_retire {job : Job} {s : Store} (h : Ordered s.current)
    (hjob : s.leased? job.id = some job) :
    s.rows.Perm (job.unleased :: (s.retire job.id).rows) := by
  have hmem := ((leased?_eq_some_iff h).1 hjob).1
  exact (((perm_retire h.nodup hmem).append_left _).trans List.perm_middle).map Job.unleased

theorem rows_grant (now : Int64) (job : Job) {s : Store} (h : Ordered s.current) :
    (s.grant now job).rows.Perm (job.unleased :: (s.retire job.id).rows) :=
  (((putLease_perm h).append_left _).trans List.perm_middle).map Job.unleased

theorem Distinct.rows_lease {s : Store} {q : Queued} {queue : List Queued} (h : s.Distinct)
    (hqueue : s.queue = q :: queue) (now : Int64) :
    (({ s with queue } : Store).grant now q.job).rows.Perm s.rows := by
  have hnodup := h.nodup
  rw [ids, hqueue, List.map_cons, List.cons_append, List.nodup_cons] at hnodup
  have hothers : s.current.filter (·.id != q.job.id) = s.current := by
    refine List.filter_eq_self.2 ?_
    intro row hrow
    have hne : row.id ≠ q.job.id := fun he =>
      hnodup.1 (List.mem_append_right _ (List.mem_map.2 ⟨row, hrow, he⟩))
    simpa using hne
  have hgrant := rows_grant now q.job (s := { s with queue }) h.ordered
  rw [Store.retire, hothers] at hgrant
  have hrows : s.rows = q.job.unleased :: ({ s with queue } : Store).rows := by
    simp [rows, jobs, hqueue]
  rw [hrows]
  exact hgrant

theorem mem_rows_of_leased? {job : Job} {s : Store} (h : Ordered s.current)
    (hjob : s.leased? job.id = some job) : job.unleased ∈ s.rows :=
  List.mem_map_of_mem (List.mem_append_right _ ((leased?_eq_some_iff h).1 hjob).1)

theorem id_mem_of_leased? {job : Job} {s : Store} (h : Ordered s.current)
    (hjob : s.leased? job.id = some job) : job.id ∈ s.ids :=
  List.mem_append_right _ (List.mem_map_of_mem ((leased?_eq_some_iff h).1 hjob).1)

end Store

namespace Coordinator

variable {s : Settings} {move : Move} {store left : Store}

def Move.ends : Move → Option String
  | .finish job => some job.id
  | .fail failed => some failed.job.id
  | .adopt _ | .enter _ | .lease .. | .renew .. => none

def Move.failures : Move → List FailedJob
  | .fail failed => [failed]
  | .adopt _ | .enter _ | .lease .. | .renew .. | .finish _ => []

theorem Move.ends_of_failure {failed : FailedJob} (h : failed ∈ move.failures) :
    move.ends = some failed.job.id := by
  cases move with
  | fail other =>
    obtain rfl := List.mem_singleton.1 h
    rfl
  | _ => cases h

def Move.enqueues (s : Settings) : Move → List Enqueue
  | .enter job => [newEntry s job]
  | .fail failed =>
    if s.retries failed then [returnEntry failed.job (failed.job.retries + 1)] else []
  | .adopt _ | .lease .. | .renew .. | .finish _ => []

theorem Moved.nextSeq (h : Moved s move store left) :
    left.nextSeq = store.nextSeq + (move.enqueues s).length := by
  cases h with
  | drop _ hretries => simp [Move.enqueues, hretries, Store.retire, Store.recordFailure]
  | retry now _ hretries =>
    simp [Move.enqueues, hretries, Store.retire, Store.recordFailure, Store.enqueue]
  | _ => rfl

theorem Moved.failed (h : Moved s move store left) :
    left.failed = store.failed ++ move.failures := by
  cases h with
  | drop => rfl
  | retry => rfl
  | _ => exact (List.append_nil _).symm

theorem Moves.failed {moves : List Move} (h : Moves s moves store left) :
    left.failed = store.failed ++ moves.flatMap (·.failures) := by
  induction h with
  | nil store => simp
  | cons first rest ih => rw [ih, first.failed, List.flatMap_cons, List.append_assoc]

/-- A move takes the row of the id it ends out, puts in what it enqueues, and leaves the rest. -/
theorem Moved.rows (h : Moved s move store left) (hd : store.Distinct) :
    ∃ now gone, (store.rows ++ (move.enqueues s).map (store.entered now)).Perm
      (gone ++ left.rows) ∧ gone.map (·.id) = move.ends.toList := by
  cases h with
  | adopt crawlId =>
    refine ⟨0, [], ?_, rfl⟩
    rw [Move.enqueues, List.map_nil, List.append_nil]
    exact .refl _
  | enter now job =>
    exact ⟨now, [], List.perm_append_comm.trans (store.rows_enqueue now _).symm, rfl⟩
  | lease now hqueue =>
    refine ⟨0, [], ?_, rfl⟩
    rw [Move.enqueues, List.map_nil, List.append_nil]
    exact (hd.rows_lease hqueue now).symm
  | @renew now job _ hjob =>
    refine ⟨0, [], ?_, rfl⟩
    rw [Move.enqueues, List.map_nil, List.append_nil]
    exact (Store.rows_retire hd.ordered hjob).trans (Store.rows_grant now job hd.ordered).symm
  | @finish job _ hjob =>
    refine ⟨0, [job.unleased], ?_, rfl⟩
    rw [Move.enqueues, List.map_nil, List.append_nil]
    exact Store.rows_retire hd.ordered hjob
  | @drop failed _ hjob hretries =>
    refine ⟨0, [failed.job.unleased], ?_, rfl⟩
    rw [Move.enqueues, if_neg (by simp [hretries]), List.map_nil, List.append_nil]
    exact Store.rows_retire hd.ordered hjob
  | @retry now failed _ hjob hretries =>
    refine ⟨now, [failed.job.unleased], ?_, rfl⟩
    rw [Move.enqueues, if_pos hretries]
    have henqueue := (store.recordFailure failed).rows_enqueue now
      (returnEntry failed.job (failed.job.retries + 1))
    exact (List.perm_append_comm.trans henqueue.symm).trans
      (Store.rows_retire (s := (store.recordFailure failed).enqueue now _) hd.ordered hjob)

theorem Moved.row_of_fail {failed : FailedJob} (h : Moved s (.fail failed) store left)
    (hd : store.Distinct) : failed.job.unleased ∈ store.rows := by
  cases h with
  | drop hjob => exact Store.mem_rows_of_leased? hd.ordered hjob
  | retry _ hjob => exact Store.mem_rows_of_leased? hd.ordered hjob

/-- A job that was taken in, and what became of it. -/
structure Thread where
  entry : NewJob
  /-- The ids it has had, the latest first. -/
  ids : List String
  failures : List FailedJob := []
  /-- Whether it is queued or leased. -/
  live : Bool := true
  deriving DecidableEq, Repr

namespace Thread

def now? (t : Thread) : Option String := if t.live then t.ids.head? else none

def meet (s : Settings) (next : Nat) (move : Move) (t : Thread) : Thread :=
  match move with
  | .finish job => if t.now? = some job.id then { t with live := false } else t
  | .fail failed =>
    if t.now? ≠ some failed.job.id then t
    else if s.retries failed then
      { t with ids := Store.jobId next :: t.ids, failures := t.failures ++ [failed] }
    else { t with failures := t.failures ++ [failed], live := false }
  | .adopt _ | .enter _ | .lease .. | .renew .. => t

end Thread

def Move.begins (next : Nat) : Move → List Thread
  | .enter job => [{ entry := job, ids := [Store.jobId next] }]
  | .adopt _ | .lease .. | .renew .. | .finish _ | .fail _ => []

def weave (s : Settings) : (next : Nat) → List Move → List Thread → List Thread
  | _, [], threads => threads
  | next, move :: moves, threads =>
    weave s (next + (move.enqueues s).length) moves
      (threads.map (·.meet s next move) ++ move.begins next)

namespace Thread

variable {t : Thread} {id : String} {next : Nat}

theorem now?_eq_some_iff : t.now? = some id ↔ t.live = true ∧ ∃ ids, t.ids = id :: ids := by
  simp [now?, List.head?_eq_some_iff]

theorem mem_ids_of_now? (h : t.now? = some id) : id ∈ t.ids := by
  obtain ⟨-, ids, hids⟩ := now?_eq_some_iff.1 h
  simp [hids]

end Thread

/-- What a move can make of a thread. -/
inductive Thread.Meets (s : Settings) (next : Nat) (t : Thread) : Move → Thread → Prop where
  | stays {move : Move} (hnow : ∀ id, move.ends = some id → t.now? ≠ some id) :
    Meets s next t move t
  | finishes {job : Job} (hnow : t.now? = some job.id) :
    Meets s next t (.finish job) { t with live := false }
  | drops {failed : FailedJob} (hnow : t.now? = some failed.job.id)
    (hretries : s.retries failed = false) :
    Meets s next t (.fail failed) { t with failures := t.failures ++ [failed], live := false }
  | retries {failed : FailedJob} (hnow : t.now? = some failed.job.id)
    (hretries : s.retries failed = true) :
    Meets s next t (.fail failed)
      { t with ids := Store.jobId next :: t.ids, failures := t.failures ++ [failed] }

theorem Thread.meets (t : Thread) (next : Nat) (move : Move) :
    t.Meets s next move (t.meet s next move) := by
  cases move with
  | finish job =>
    by_cases hnow : t.now? = some job.id
    · rw [meet, if_pos hnow]
      exact .finishes hnow
    · rw [meet, if_neg hnow]
      exact .stays fun id hid => Option.some.inj hid ▸ hnow
  | fail failed =>
    by_cases hnow : t.now? = some failed.job.id
    · rw [meet, if_neg (not_not.2 hnow)]
      split
      · next hretries => exact .retries hnow hretries
      · next hretries => exact .drops hnow (Bool.eq_false_iff.2 hretries)
    · rw [meet, if_pos hnow]
      exact .stays fun id hid => Option.some.inj hid ▸ hnow
  | _ => exact .stays fun id hid => by cases hid

theorem Thread.Meets.eq_self {t t' : Thread} {next : Nat} (h : t.Meets s next move t')
    (hnow : ∀ id, move.ends = some id → t.now? ≠ some id) : t' = t := by
  cases h with
  | stays => rfl
  | finishes hnow' => exact absurd hnow' (hnow _ rfl)
  | drops hnow' => exact absurd hnow' (hnow _ rfl)
  | retries hnow' => exact absurd hnow' (hnow _ rfl)

def Move.gives (s : Settings) (next : Nat) (move : Move) : List String :=
  (move.enqueues s).map fun _ => Store.jobId next

theorem Move.range_gives (move : Move) (next : Nat) :
    (List.range (next + (move.enqueues s).length)).map Store.jobId =
      (List.range next).map Store.jobId ++ move.gives s next := by
  cases move with
  | enter job => simp [gives, enqueues, List.range_succ]
  | fail failed =>
    by_cases hretries : s.retries failed <;> simp [gives, enqueues, hretries, List.range_succ]
  | _ => simp [gives, enqueues]

theorem Move.ids_begins (hends : move.ends = none) (next : Nat) :
    (move.begins next).flatMap (·.ids) = move.gives s next ∧
      (move.begins next).filterMap (·.now?) = move.gives s next := by
  cases move with
  | finish => cases hends
  | fail => cases hends
  | _ => exact ⟨rfl, rfl⟩

theorem Move.begins_eq_nil {id : String} (hends : move.ends = some id) (next : Nat) :
    move.begins next = [] := by
  cases move with
  | enter => cases hends
  | _ => rfl

theorem Thread.Meets.ids {t t' : Thread} {id : String} {next : Nat} (h : t.Meets s next move t')
    (hnow : t.now? = some id) (hends : move.ends = some id) :
    t'.ids = move.gives s next ++ t.ids ∧ t'.now?.toList = move.gives s next := by
  have hlive := (now?_eq_some_iff.1 hnow).1
  cases h with
  | stays hnow' => exact absurd hnow (hnow' id hends)
  | finishes => exact ⟨rfl, rfl⟩
  | drops _ hretries => simp [now?, Move.gives, Move.enqueues, hretries]
  | retries _ hretries => simp [now?, Move.gives, Move.enqueues, hretries, hlive]

theorem Moved.ids (h : Moved s move store left) (hd : store.Distinct) :
    (store.ids ++ move.gives s store.nextSeq).Perm (move.ends.toList ++ left.ids) := by
  obtain ⟨now, gone, hrows, hgone⟩ := h.rows hd
  have hids := hrows.map (·.id)
  rw [List.map_append, List.map_append, Store.map_id_rows, Store.map_id_rows, hgone,
    List.map_map] at hids
  exact hids

/-- The threads tell of every id given whose it is, and of every job where it is. -/
structure Woven (threads : List Thread) (store : Store) : Prop where
  given : (threads.flatMap (·.ids)).Perm ((List.range store.nextSeq).map Store.jobId)
  placed : store.ids.Perm (threads.filterMap (·.now?))
  recorded : ∀ failed ∈ store.failed, failed.job.id ∈ threads.flatMap (·.ids)

variable {threads : List Thread} {t : Thread} {id : String}

theorem woven_empty : Woven [] {} := ⟨.refl _, .refl _, by simp⟩

theorem Woven.nodup (h : Woven threads store) : (threads.flatMap (·.ids)).Nodup :=
  h.given.nodup_iff.2 (List.nodup_range.map fun _ _ => Store.jobId_injective)

theorem Woven.fresh (h : Woven threads store) :
    Store.jobId store.nextSeq ∉ threads.flatMap (·.ids) := by
  intro hmem
  obtain ⟨n, hn, he⟩ := List.mem_map.1 (h.given.mem_iff.1 hmem)
  rw [Store.jobId_injective he] at hn
  exact absurd (List.mem_range.1 hn) (Nat.lt_irrefl _)

/-- A job in the store has one thread. -/
theorem Woven.holder (h : Woven threads store) (hd : store.Distinct) (hid : id ∈ store.ids) :
    ∃ before t after, threads = before ++ t :: after ∧ t.now? = some id ∧
      (∀ other ∈ before, other.now? ≠ some id) ∧ ∀ other ∈ after, other.now? ≠ some id := by
  obtain ⟨t, ht, hnow⟩ := List.mem_filterMap.1 (h.placed.mem_iff.1 hid)
  obtain ⟨before, after, rfl⟩ := List.append_of_mem ht
  have hnodup := h.placed.nodup_iff.1 hd.nodup
  rw [List.filterMap_append, List.filterMap_cons_some hnow, List.nodup_middle,
    List.nodup_cons] at hnodup
  refine ⟨before, t, after, rfl, hnow, ?_, ?_⟩
  · intro other hother hother'
    exact hnodup.1 (List.mem_append_left _ (List.mem_filterMap.2 ⟨other, hother, hother'⟩))
  · intro other hother hother'
    exact hnodup.1 (List.mem_append_right _ (List.mem_filterMap.2 ⟨other, hother, hother'⟩))

/-- An id is in no thread but that of its job. -/
theorem Woven.not_mem (h : Woven threads store) (hd : store.Distinct) (hid : id ∈ store.ids)
    (ht : t ∈ threads) (hnow : t.now? ≠ some id) : id ∉ t.ids := by
  intro hmem
  obtain ⟨before, holder, after, rfl, hholder, -, -⟩ := h.holder hd hid
  have hnodup := h.nodup
  have hids := Thread.mem_ids_of_now? hholder
  rw [List.flatMap_append, List.flatMap_cons, List.nodup_append_comm, List.append_assoc,
    List.nodup_append] at hnodup
  rcases List.mem_append.1 ht with ht | ht
  · exact hnodup.2.2 id hids id
      (List.mem_append_right _ (List.mem_flatMap.2 ⟨t, ht, hmem⟩)) rfl
  · rcases List.mem_cons.1 ht with rfl | ht
    · exact hnow hholder
    · exact hnodup.2.2 id hids id
        (List.mem_append_left _ (List.mem_flatMap.2 ⟨t, ht, hmem⟩)) rfl

theorem Moved.ends_mem (h : Moved s move store left) (hd : store.Distinct)
    (hends : move.ends = some id) : id ∈ store.ids := by
  cases h with
  | finish hjob => exact Option.some.inj hends ▸ Store.id_mem_of_leased? hd.ordered hjob
  | drop hjob => exact Option.some.inj hends ▸ Store.id_mem_of_leased? hd.ordered hjob
  | retry _ hjob => exact Option.some.inj hends ▸ Store.id_mem_of_leased? hd.ordered hjob
  | _ => cases hends

theorem Woven.meet (hw : Woven threads store) (hd : store.Distinct)
    (hmem : ∀ id, move.ends = some id → id ∈ store.ids) (next : Nat) :
    let woven := threads.map (·.meet s next move) ++ move.begins next
    (woven.flatMap (·.ids)).Perm (threads.flatMap (·.ids) ++ move.gives s next) ∧
      (move.ends.toList ++ woven.filterMap (·.now?)).Perm
        (threads.filterMap (·.now?) ++ move.gives s next) := by
  intro woven
  have hsame : ∀ others : List Thread,
      (∀ id, move.ends = some id → ∀ t ∈ others, t.now? ≠ some id) →
      others.map (·.meet s next move) = others := by
    intro others hne
    refine (List.map_congr_left ?_).trans (List.map_id others)
    intro t ht
    exact (t.meets next move).eq_self fun id hid => hne id hid t ht
  cases hends : move.ends with
  | none =>
    obtain ⟨hids, hnow⟩ := Move.ids_begins (s := s) hends next
    have hwoven : woven = threads ++ move.begins next := by
      rw [← hsame threads fun id hid => by rw [hends] at hid; cases hid]
    rw [hwoven, List.flatMap_append, List.filterMap_append, hids, hnow]
    exact ⟨.refl _, .refl _⟩
  | some id =>
    obtain ⟨before, t, after, rfl, hnow, hbefore, hafter⟩ := hw.holder hd (hmem id hends)
    obtain ⟨hids, hnow'⟩ := (t.meets (s := s) next move).ids hnow hends
    have hwoven : woven = before ++ t.meet s next move :: after := by
      simp only [woven, List.map_append, List.map_cons, Move.begins_eq_nil hends,
        List.append_nil]
      rw [hsame before fun other hother t ht => ?_, hsame after fun other hother t ht => ?_]
      · rw [hends] at hother
        exact Option.some.inj hother ▸ hafter t ht
      · rw [hends] at hother
        exact Option.some.inj hother ▸ hbefore t ht
    rw [hwoven]
    -- the new id stands in the middle on one side and at the end on the other, so ids are counted
    constructor
    · rw [List.perm_iff_count]
      intro x
      simp only [List.flatMap_append, List.flatMap_cons, hids, List.count_append]
      omega
    · rw [List.perm_iff_count]
      intro x
      simp only [List.filterMap_eq_flatMap_toList, List.flatMap_append, List.flatMap_cons, hnow,
        hnow', List.count_append, Option.toList_some]
      omega

theorem Moved.woven (h : Moved s move store left) (hd : store.Distinct)
    (hw : Woven threads store) :
    Woven (threads.map (·.meet s store.nextSeq move) ++ move.begins store.nextSeq) left := by
  obtain ⟨hids, hnow⟩ := hw.meet (s := s) hd (fun id => h.ends_mem hd) store.nextSeq
  have hgiven := hw.given.append_right (move.gives s store.nextSeq)
  rw [← Move.range_gives, ← h.nextSeq] at hgiven
  refine ⟨hids.trans hgiven, ?_, ?_⟩
  · have hplaced := (h.ids hd).symm.trans (hw.placed.append_right _)
    exact (List.perm_append_left_iff _).1 (hplaced.trans hnow.symm)
  · intro failed hfailed
    rw [h.failed] at hfailed
    refine hids.mem_iff.2 (List.mem_append_left _ ?_)
    rcases List.mem_append.1 hfailed with hfailed | hfailed
    · exact hw.recorded failed hfailed
    · have hends := h.ends_mem hd (Move.ends_of_failure hfailed)
      obtain ⟨t, ht, hnow⟩ := List.mem_filterMap.1 (hw.placed.mem_iff.1 hends)
      exact List.mem_flatMap.2 ⟨t, ht, Thread.mem_ids_of_now? hnow⟩

/-- The account of a thread: what its job asks for, how often it was put back, and what was
recorded for it. -/
structure Thread.Kept (s : Settings) (work : Work) (store : Store) (t : Thread) : Prop where
  row : ∀ row ∈ store.rows, t.now? = some row.id →
    row.work = work ∧ row.retries.toNat = t.failures.length
  records : t.failures = store.failed.filter (·.job.id ∈ t.ids)
  works : ∀ failed ∈ t.failures, failed.job.work = work
  counted : t.failures.map (·.job.retries.toNat) = List.range t.failures.length
  retried : t.live = true → ∀ failed ∈ t.failures, s.retries failed = true
  bound : t.failures.length ≤ s.maxRetries.toNat + if t.live then 0 else 1

theorem Moved.row_cases (h : Moved s move store left) (hd : store.Distinct) {row : Job}
    (hrow : row ∈ left.rows) :
    row ∈ store.rows ∨ ∃ now, ∃ entry ∈ move.enqueues s, row = store.entered now entry := by
  obtain ⟨now, gone, hrows, -⟩ := h.rows hd
  rcases List.mem_append.1 (hrows.mem_iff.2 (List.mem_append_right gone hrow)) with hold | hnew
  · exact .inl hold
  · obtain ⟨entry, hentry, rfl⟩ := List.mem_map.1 hnew
    exact .inr ⟨now, entry, hentry, rfl⟩

theorem Woven.row_mem (hw : Woven threads store) {row : Job} (hrow : row ∈ store.rows) :
    row.id ∈ threads.flatMap (·.ids) := by
  have hid : row.id ∈ store.ids := by
    rw [← Store.map_id_rows]
    exact List.mem_map_of_mem hrow
  obtain ⟨t, ht, hnow⟩ := List.mem_filterMap.1 (hw.placed.mem_iff.1 hid)
  exact List.mem_flatMap.2 ⟨t, ht, Thread.mem_ids_of_now? hnow⟩

namespace Thread.Kept

variable {work : Work} {failed : FailedJob}

theorem of_fail (hk : t.Kept s work store) (h : Moved s (.fail failed) store left)
    (hd : store.Distinct) (hnow : t.now? = some failed.job.id) :
    failed.job.work = work ∧ failed.job.retries.toNat = t.failures.length :=
  hk.row failed.job.unleased (h.row_of_fail hd) hnow

theorem stay (hk : t.Kept s work store) (h : Moved s move store left) (hd : store.Distinct)
    (hw : Woven threads store) (ht : t ∈ threads) (hnow : ∀ id, move.ends = some id →
      t.now? ≠ some id) : t.Kept s work left where
  row := by
    intro row hrow hid
    rcases h.row_cases hd hrow with hold | ⟨now, entry, -, rfl⟩
    · exact hk.row row hold hid
    · exact absurd (List.mem_flatMap.2 ⟨t, ht, mem_ids_of_now? hid⟩) hw.fresh
  records := by
    have hothers : move.failures.filter (·.job.id ∈ t.ids) = [] := by
      refine List.filter_eq_nil_iff.2 ?_
      intro failed hfailed
      have hends := Move.ends_of_failure hfailed
      simpa using hw.not_mem hd (h.ends_mem hd hends) ht (hnow _ hends)
    rw [h.failed, List.filter_append, hothers, List.append_nil]
    exact hk.records
  works := hk.works
  counted := hk.counted
  retried := hk.retried
  bound := hk.bound

theorem finish {job : Job} (hk : t.Kept s work store) (h : Moved s (.finish job) store left) :
    ({ t with live := false } : Thread).Kept s work left where
  row := by
    intro row _ hid
    cases hid
  records := by
    rw [h.failed, Move.failures, List.append_nil]
    exact hk.records
  works := hk.works
  counted := hk.counted
  retried := fun hlive => by cases hlive
  bound := by
    have hbound := hk.bound
    show t.failures.length ≤ s.maxRetries.toNat + 1
    split at hbound <;> omega

theorem counted_append (hk : t.Kept s work store)
    (hretries : failed.job.retries.toNat = t.failures.length) :
    (t.failures ++ [failed]).map (·.job.retries.toNat) =
      List.range (t.failures ++ [failed]).length := by
  rw [List.map_append, hk.counted, List.length_append, List.length_singleton, List.range_succ,
    List.map_singleton, hretries]

theorem works_append (hk : t.Kept s work store) (hwork : failed.job.work = work) :
    ∀ other ∈ t.failures ++ [failed], other.job.work = work := by
  intro other hother
  rcases List.mem_append.1 hother with hother | hother
  · exact hk.works other hother
  · rw [List.mem_singleton.1 hother]
    exact hwork

theorem drop (hk : t.Kept s work store) (h : Moved s (.fail failed) store left)
    (hd : store.Distinct) (hnow : t.now? = some failed.job.id) :
    ({ t with failures := t.failures ++ [failed], live := false } : Thread).Kept s work left := by
  obtain ⟨hwork, hretries⟩ := hk.of_fail h hd hnow
  have hlive := (now?_eq_some_iff.1 hnow).1
  have hbound := hk.bound
  rw [hlive, if_pos rfl] at hbound
  exact {
    row := by
      intro row _ hid
      cases hid
    records := by
      rw [h.failed, Move.failures, List.filter_append, ← hk.records,
        List.filter_cons_of_pos (by simpa using mem_ids_of_now? hnow), List.filter_nil]
    works := hk.works_append hwork
    counted := hk.counted_append hretries
    retried := fun hlive => by cases hlive
    bound := by
      rw [List.length_append, List.length_singleton]
      exact Nat.succ_le_succ hbound }

theorem retry (hk : t.Kept s work store) (h : Moved s (.fail failed) store left)
    (hd : store.Distinct) (hw : Woven threads store) (hnow : t.now? = some failed.job.id)
    (hretried : s.retries failed = true) :
    ({ t with
        ids := Store.jobId store.nextSeq :: t.ids
        failures := t.failures ++ [failed] } : Thread).Kept s work left := by
  obtain ⟨hwork, hretries⟩ := hk.of_fail h hd hnow
  have hlive := (now?_eq_some_iff.1 hnow).1
  have hless : failed.job.retries < s.maxRetries := by
    simp only [Settings.retries, Bool.and_eq_true, decide_eq_true_eq] at hretried
    exact hretried.1
  have hless' := UInt32.lt_iff_toNat_lt.1 hless
  exact {
    row := by
      intro row hrow hid
      obtain ⟨-, ids, hids⟩ := now?_eq_some_iff.1 hid
      have hrowId : row.id = Store.jobId store.nextSeq := (List.cons.inj hids).1.symm
      rcases h.row_cases hd hrow with hold | ⟨now, entry, hentry, rfl⟩
      · exact absurd (hrowId ▸ hw.row_mem hold) hw.fresh
      · rw [Move.enqueues, if_pos hretried, List.mem_singleton] at hentry
        subst hentry
        refine ⟨hwork, ?_⟩
        have hmax := s.maxRetries.toNat_lt
        show (failed.job.retries + 1).toNat = (t.failures ++ [failed]).length
        rw [List.length_append, List.length_singleton, UInt32.toNat_add, hretries]
        exact Nat.mod_eq_of_lt (Nat.lt_of_le_of_lt (hretries ▸ hless') hmax)
    records := by
      have hfresh : store.failed.filter (·.job.id ∈ Store.jobId store.nextSeq :: t.ids) =
          store.failed.filter (·.job.id ∈ t.ids) := by
        refine List.filter_congr ?_
        intro other hother
        have hne : other.job.id ≠ Store.jobId store.nextSeq := fun he =>
          hw.fresh (he ▸ hw.recorded other hother)
        simp [hne]
      rw [h.failed, Move.failures, List.filter_append, hfresh, ← hk.records,
        List.filter_cons_of_pos (by simpa using .inr (mem_ids_of_now? hnow)), List.filter_nil]
    works := hk.works_append hwork
    counted := hk.counted_append hretries
    retried := by
      intro _ other hother
      rcases List.mem_append.1 hother with hother | hother
      · exact hk.retried hlive other hother
      · rw [List.mem_singleton.1 hother]
        exact hretried
    bound := by
      rw [List.length_append, List.length_singleton, if_pos hlive]
      omega }

theorem meet {t' : Thread} (hk : t.Kept s work store) (h : Moved s move store left)
    (hd : store.Distinct) (hw : Woven threads store) (ht : t ∈ threads)
    (hmeets : t.Meets s store.nextSeq move t') : t'.Kept s work left := by
  cases hmeets with
  | stays hnow => exact hk.stay h hd hw ht hnow
  | finishes => exact hk.finish h
  | drops hnow => exact hk.drop h hd hnow
  | retries hnow hretries => exact hk.retry h hd hw hnow hretries

end Thread.Kept

theorem Moved.kept_begins {entry : NewJob} (h : Moved s (.enter entry) store left)
    (hw : Woven threads store) :
    ∃ now, ({ entry, ids := [Store.jobId store.nextSeq] } : Thread).Kept s
      ((newEntry s entry).work now) left := by
  cases h with
  | enter now =>
    refine ⟨now, ?_, ?_, by simp, rfl, by simp, by simp⟩
    · intro row hrow hid
      rcases List.mem_cons.1 ((store.rows_enqueue now _).mem_iff.1 hrow) with rfl | hrow
      · exact ⟨rfl, rfl⟩
      · exact absurd (Option.some.inj hid ▸ hw.row_mem hrow) hw.fresh
    · refine (List.filter_eq_nil_iff.2 ?_).symm
      intro failed hfailed
      have hne : failed.job.id ≠ Store.jobId store.nextSeq := fun he =>
        hw.fresh (he ▸ hw.recorded failed hfailed)
      simpa using hne

structure Followed (s : Settings) (threads : List Thread) (store : Store) : Prop where
  woven : Woven threads store
  kept : ∀ t ∈ threads, ∃ now, t.Kept s ((newEntry s t.entry).work now) store

/-- How a thread relates to the same thread later on. -/
structure Thread.Precedes (t later : Thread) : Prop where
  entry : later.entry = t.entry
  ids : t.ids <:+ later.ids
  failures : t.failures <+: later.failures
  closed : t.live = false → later = t

theorem Thread.Precedes.refl (t : Thread) : t.Precedes t :=
  ⟨rfl, List.suffix_refl _, List.prefix_refl _, fun _ => rfl⟩

theorem Thread.Precedes.trans {t next later : Thread} (h : t.Precedes next)
    (h' : next.Precedes later) : t.Precedes later where
  entry := h'.entry.trans h.entry
  ids := h.ids.trans h'.ids
  failures := h.failures.trans h'.failures
  closed := by
    intro hclosed
    obtain rfl := h.closed hclosed
    exact h'.closed hclosed

theorem Thread.Meets.precedes {t t' : Thread} {next : Nat} (h : t.Meets s next move t') :
    t.Precedes t' := by
  have hlive : ∀ {id : String}, t.now? = some id → t.live ≠ false := fun hnow hclosed => by
    rw [(now?_eq_some_iff.1 hnow).1] at hclosed
    cases hclosed
  cases h with
  | stays => exact .refl t
  | finishes hnow =>
    exact ⟨rfl, List.suffix_refl _, List.prefix_refl _, fun h => absurd h (hlive hnow)⟩
  | drops hnow =>
    exact ⟨rfl, List.suffix_refl _, List.prefix_append _ _, fun h => absurd h (hlive hnow)⟩
  | retries hnow =>
    exact ⟨rfl, List.suffix_cons _ _, List.prefix_append _ _, fun h => absurd h (hlive hnow)⟩

theorem Moved.followed (h : Moved s move store left) (hd : store.Distinct)
    (hf : Followed s threads store) : Followed s
      (threads.map (·.meet s store.nextSeq move) ++ move.begins store.nextSeq) left where
  woven := h.woven hd hf.woven
  kept := by
    intro t ht
    rcases List.mem_append.1 ht with ht | ht
    · obtain ⟨old, hold, rfl⟩ := List.mem_map.1 ht
      obtain ⟨now, hkept⟩ := hf.kept old hold
      have hmeets := old.meets (s := s) store.nextSeq move
      refine ⟨now, ?_⟩
      rw [hmeets.precedes.entry]
      exact hkept.meet h hd hf.woven hold hmeets
    · cases move with
      | enter entry =>
        obtain rfl := List.mem_singleton.1 ht
        exact h.kept_begins hf.woven
      | _ => cases ht

/-- Along the moves of a store the threads keep following its jobs, each in its place. -/
theorem Moves.followed {moves : List Move} (h : Moves s moves store left) (hd : store.Distinct)
    (hf : Followed s threads store) :
    let later := weave s store.nextSeq moves threads
    Followed s later left ∧ ∀ (i : Nat) (t : Thread) (work : Work), threads[i]? = some t →
      t.Kept s work store →
      ∃ t' : Thread, later[i]? = some t' ∧ t.Precedes t' ∧ t'.Kept s work left := by
  induction h generalizing threads with
  | nil store => exact ⟨hf, fun i t work ht hk => ⟨t, ht, .refl t, hk⟩⟩
  | @cons move moves store next left first rest ih =>
    obtain ⟨hf', hlater⟩ := ih (first.distinct hd).1 (first.followed hd hf)
    rw [weave, ← first.nextSeq]
    refine ⟨hf', ?_⟩
    intro i t work ht hk
    have hmem := List.mem_of_getElem? ht
    have hmeets := t.meets (s := s) store.nextSeq move
    have hi : (threads.map (·.meet s store.nextSeq move) ++ move.begins store.nextSeq)[i]? =
        some (t.meet s store.nextSeq move) := by
      rw [List.getElem?_append_left (by simpa using (List.getElem?_eq_some_iff.1 ht).1),
        List.getElem?_map, ht, Option.map_some]
    obtain ⟨t', ht', hprecedes, hk'⟩ := hlater i _ work hi (hk.meet first hd hf.woven hmem hmeets)
    exact ⟨t', ht', hmeets.precedes.trans hprecedes, hk'⟩

def Thread.Bears (store : Store) (t : Thread) (job : Job) : Prop :=
  (job ∈ store.jobs ∧ t.now? = some job.id) ∨ ∃ failed ∈ t.failures, failed.job = job

theorem Thread.Kept.bears {work : Work} {job : Job} (hk : t.Kept s work store)
    (h : t.Bears store job) : job.work = work := by
  rcases h with ⟨hjob, hnow⟩ | ⟨failed, hfailed, rfl⟩
  · exact (hk.row job.unleased (List.mem_map_of_mem hjob) hnow).1
  · exact hk.works failed hfailed

theorem Woven.not_mem_of_closed (h : Woven threads store) (hd : store.Distinct) (ht : t ∈ threads)
    (hclosed : t.live = false) (hid : id ∈ t.ids) : id ∉ store.ids := by
  intro hmem
  refine h.not_mem hd hmem ht ?_ hid
  simp [Thread.now?, hclosed]

end Coordinator
end CrawlCluster
