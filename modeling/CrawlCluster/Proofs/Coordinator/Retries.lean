import CrawlCluster.Proofs.Coordinator.Threads
import CrawlCluster.Proofs.Coordinator.Transition

set_option autoImplicit false

namespace CrawlCluster.Coordinator

variable {s : Settings}

def Report.move (said : Report) (job : Job) : Move :=
  if said.outcome.isSuccess then .finish job else .fail ⟨job, said.outcome, said.detail⟩

namespace Request

def moves [ScanOrder] (request : Request) (result : Except JobError Answer)
    (b : Books) : List Move :=
  match request, result with
  | .upload jobs, .ok _ => jobs.map .enter
  | .harvest brought, .ok _ => adopting brought.directive.crawlId b ++ brought.jobs.map .enter
  | .takeJob, .ok (.assignment (.spider _ _ leaseTime _)) =>
    (b.store.queue.head?.map fun q => .lease q.job leaseTime).toList
  | .renew lease, .ok (.leaseTime leaseTime) =>
    ((b.store.held? lease).map fun job => .renew job leaseTime).toList
  | .report _ _ said, .ok _ => ((b.store.held? said.lease).map (Report.move said)).toList
  | .sweep before, .ok _ => ((b.overdue before).map overdue).map .fail
  | _, _ => []

end Request

def Move.taken : Move → List NewJob
  | .enter job => [job]
  | .adopt _ | .lease .. | .renew .. | .finish _ | .fail _ => []

namespace Request

def taken (request : Request) (result : Except JobError Answer) : List NewJob :=
  match request, result with
  | .upload jobs, .ok _ => jobs
  | .harvest brought, .ok _ => brought.jobs
  | _, _ => []

theorem taken_moves [ScanOrder] (request : Request) (result : Except JobError Answer) (b : Books) :
    (request.moves result b).flatMap Move.taken = request.taken result := by
  have henter : ∀ jobs : List NewJob, (jobs.map Move.enter).flatMap Move.taken = jobs := by
    intro jobs
    rw [List.flatMap_map]
    exact List.flatMap_singleton' jobs
  cases result with
  | error error => cases request <;> rfl
  | ok answer =>
    cases request with
    | upload jobs => exact henter jobs
    | harvest brought =>
      rw [moves, List.flatMap_append, henter, adopting]
      split <;> rfl
    | takeJob =>
      cases answer with
      | assignment assignment =>
        cases assignment with
        | spider => cases hqueue : b.store.queue.head? <;> simp [moves, taken, hqueue, Move.taken]
        | _ => rfl
      | _ => rfl
    | renew lease =>
      cases answer with
      | leaseTime => cases hheld : b.store.held? lease <;> simp [moves, taken, hheld, Move.taken]
      | _ => rfl
    | report node client said =>
      cases hheld : b.store.held? said.lease with
      | none => simp [moves, taken, hheld]
      | some job =>
        cases hsuccess : said.outcome.isSuccess <;>
          simp [moves, taken, hheld, Report.move, hsuccess, Move.taken]
    | sweep before => simp [moves, taken, List.flatMap_map, Move.taken]

end Request

theorem Transition.made [ScanOrder] {now : Int64} {request : Request}
    {result : Except JobError Answer}
    {b left : Books} (h : Transition s now request result b left) :
    Moves s (request.moves result b) b.store left.store := by
  cases h with
  | admitted _ hmoves => exact hmoves
  | harvested _ hmoves => exact hmoves
  | @leased job leaseTime _ store _ hmove =>
    have hhead : b.store.queue.head?.map (fun q => Move.lease q.job leaseTime) =
        some (.lease job leaseTime) := by
      cases hmove with
      | lease _ hqueue => rw [hqueue]; rfl
    rw [Request.moves, hhead]
    exact hmove.moves
  | renewed hheld hmove =>
    rw [Request.moves, hheld]
    exact hmove.moves
  | finished hheld hsuccess hmove =>
    rw [Request.moves, hheld, Option.map_some, Report.move, if_pos hsuccess]
    exact hmove.moves
  | failed hheld hsuccess hmove =>
    rw [Request.moves, hheld, Option.map_some, Report.move, if_neg (by simp [hsuccess])]
    exact hmove.moves
  | swept hmoves => exact hmoves
  | _ => exact .nil _

def Entry.taken (s : Settings) (entry : Entry) : List NewJob :=
  match entry.operation.read s with
  | .ok request => request.taken entry.result
  | .error _ => []

namespace Course

variable (s)

variable [ScanOrder]

def moves (c : Course) (step : Step) : List Move :=
  match step.operation.read s with
  | .ok request => request.moves (c.ask s step).1 c.books
  | .error _ => []

def follow : Course → List Thread → List Step → List Thread
  | _, threads, [] => threads
  | c, threads, step :: steps =>
    follow (c.take s step) (weave s c.books.store.nextSeq (c.moves s step) threads) steps

/-- The threads of all jobs taken in, in the order they came. -/
def threads (clock : Nat → Int64) (steps : List Step) : List Thread :=
  follow s { state := { store := .steady clock } } [] steps

theorem follow_append (c : Course) (threads : List Thread) (steps more : List Step) :
    follow s c threads (steps ++ more) =
      follow s (steps.foldl (take s) c) (follow s c threads steps) more := by
  induction steps generalizing c threads with
  | nil => rfl
  | cons step steps ih => exact ih _ _

theorem threads_snoc (clock : Nat → Int64) (steps : List Step) (step : Step) :
    threads s clock (steps ++ [step]) = weave s (run s clock steps).books.store.nextSeq
      ((run s clock steps).moves s step) (threads s clock steps) :=
  follow_append s _ _ steps [step]

variable {s}

theorem Sound.made {c : Course} (h : c.Sound) (step : Step) :
    Moves s (c.moves s step) c.books.store (c.take s step).books.store := by
  have hcomes := h.comes (s := s) step
  cases hread : step.operation.read s with
  | error error =>
    obtain ⟨-, hbooks⟩ := (Operation.comes_error hread).1 hcomes
    rw [moves, hread, hbooks]
    exact .nil _
  | ok request =>
    rw [moves, hread]
    exact ((Operation.comes_ok hread).1 hcomes).made

variable (s)

theorem run_followed (clock : Nat → Int64) (steps : List Step) :
    Followed s (threads s clock steps) (run s clock steps).books.store := by
  induction steps using List.reverseRecOn with
  | nil => exact ⟨woven_empty, fun t ht => by cases ht⟩
  | append_singleton steps step ih =>
    have hsound := run_sound s clock steps
    rw [threads_snoc, run_snoc]
    exact ((hsound.made step).followed hsound.distinct ih).1

theorem threads_later (clock : Nat → Int64) (steps more : List Step) {i : Nat} {t : Thread}
    {work : Work} (ht : (threads s clock steps)[i]? = some t)
    (hk : t.Kept s work (run s clock steps).books.store) :
    ∃ t', (threads s clock (steps ++ more))[i]? = some t' ∧ t.Precedes t' ∧
      t'.Kept s work (run s clock (steps ++ more)).books.store := by
  induction more using List.reverseRecOn with
  | nil =>
    rw [List.append_nil]
    exact ⟨t, ht, .refl t, hk⟩
  | append_singleton more step ih =>
    obtain ⟨t₁, ht₁, hprecedes₁, hk₁⟩ := ih
    have hsound := run_sound s clock (steps ++ more)
    obtain ⟨-, hlater⟩ := (hsound.made step).followed hsound.distinct
      (run_followed s clock (steps ++ more))
    obtain ⟨t₂, ht₂, hprecedes₂, hk₂⟩ := hlater i t₁ work ht₁ hk₁
    rw [← List.append_assoc, threads_snoc, run_snoc]
    exact ⟨t₂, ht₂, hprecedes₁.trans hprecedes₂, hk₂⟩

theorem run_failed (clock : Nat → Int64) (steps more : List Step) :
    (run s clock steps).books.store.failed <+:
      (run s clock (steps ++ more)).books.store.failed := by
  induction more using List.reverseRecOn with
  | nil => exact ⟨[], by simp⟩
  | append_singleton more step ih =>
    have hmade := (run_sound s clock (steps ++ more)).made (s := s) step
    rw [← List.append_assoc, run_snoc, hmade.failed]
    exact ih.trans (List.prefix_append _ _)

omit [ScanOrder] in
theorem entries_weave (next : Nat) (moves : List Move) (threads : List Thread) :
    (weave s next moves threads).map (·.entry) =
      threads.map (·.entry) ++ moves.flatMap Move.taken := by
  induction moves generalizing next threads with
  | nil => simp [weave]
  | cons move moves ih =>
    have hmeet : ∀ t : Thread, (t.meet s next move).entry = t.entry := fun t =>
      (t.meets next move).precedes.entry
    rw [weave, ih, List.map_append, List.map_map, List.flatMap_cons, List.append_assoc]
    congr 1
    · exact List.map_congr_left fun t _ => hmeet t
    · cases move <;> rfl

theorem threads_entries (clock : Nat → Int64) (steps : List Step) :
    (threads s clock steps).map (·.entry) = (run s clock steps).past.flatMap (Entry.taken s) := by
  induction steps using List.reverseRecOn with
  | nil => rfl
  | append_singleton steps step ih =>
    rw [threads_snoc, run_snoc, entries_weave, ih, take, List.flatMap_append,
      List.flatMap_singleton]
    congr 1
    rw [moves, Entry.taken]
    cases step.operation.read s with
    | error error => rfl
    | ok request => exact request.taken_moves _ _

/-- Every job taken in is followed by a thread: the ids it goes under one after the other, and the
failures recorded for it. No id is in two threads, and each job queued or leased is at the head of
one. What a job asks for stays the same; its retries are the failures recorded so far, at most as
many as allowed, and there is at most one record more. From a failure that may not be retried on
the thread is closed, and the job never queued again. Failures are only ever appended. -/
theorem retries_accounted (clock : Nat → Int64) (steps more : List Step) :
    let c := run s clock steps
    let store := c.books.store
    let later := (run s clock (steps ++ more)).books.store
    (threads s clock steps).map (·.entry) = c.past.flatMap (Entry.taken s) ∧
    ((threads s clock steps).flatMap (·.ids)).Nodup ∧
    store.ids.Perm ((threads s clock steps).filterMap (·.now?)) ∧
    (∀ failed ∈ store.failed, ∃ t ∈ threads s clock steps, failed.job.id ∈ t.ids) ∧
    (∀ t ∈ threads s clock steps,
      t.failures = store.failed.filter (·.job.id ∈ t.ids) ∧
      t.failures.length ≤ s.maxRetries.toNat + 1 ∧
      ∀ job ∈ store.jobs, t.now? = some job.id →
        job.retries.toNat = t.failures.length ∧ job.retries ≤ s.maxRetries) ∧
    (∀ (i : Nat) (t : Thread), (threads s clock steps)[i]? = some t → ∃ t', ∃ now,
      (threads s clock (steps ++ more))[i]? = some t' ∧ t.Precedes t' ∧
      (∀ job, t.Bears store job ∨ t'.Bears later job →
        job.work = (newEntry s t.entry).work now) ∧
      ((∃ failed ∈ t.failures,
          failed.outcome.isRetriable = false ∨ s.maxRetries ≤ failed.job.retries) →
        t' = t ∧ ∀ id ∈ t.ids, id ∉ later.ids)) ∧
    store.failed <+: later.failed := by
  intro c store later
  have hfollowed := run_followed s clock steps
  refine ⟨threads_entries s clock steps, hfollowed.woven.nodup, hfollowed.woven.placed, ?_, ?_, ?_,
    run_failed s clock steps more⟩
  · intro failed hfailed
    exact List.mem_flatMap.1 (hfollowed.woven.recorded failed hfailed)
  · intro t ht
    obtain ⟨now, hk⟩ := hfollowed.kept t ht
    have hbound := hk.bound
    refine ⟨hk.records, by split at hbound <;> omega, ?_⟩
    intro job hjob hnow
    have hretries := (hk.row job.unleased (List.mem_map_of_mem hjob) hnow).2
    rw [(Thread.now?_eq_some_iff.1 hnow).1, if_pos rfl] at hbound
    refine ⟨hretries, UInt32.le_iff_toNat_le.2 ?_⟩
    rw [show job.retries.toNat = t.failures.length from hretries]
    exact hbound
  · intro i t ht
    obtain ⟨now, hk⟩ := hfollowed.kept t (List.mem_of_getElem? ht)
    obtain ⟨t', ht', hprecedes, hk'⟩ := threads_later s clock steps more ht hk
    refine ⟨t', now, ht', hprecedes, ?_, ?_⟩
    · rintro job (hjob | hjob)
      · exact hk.bears hjob
      · exact hk'.bears hjob
    · rintro ⟨failed, hfailed, hlast⟩
      have hclosed : t.live = false := by
        refine Bool.eq_false_iff.2 fun hlive => ?_
        have hretried := hk.retried hlive failed hfailed
        simp only [Settings.retries, Bool.and_eq_true, decide_eq_true_eq] at hretried
        rcases hlast with hlast | hlast
        · rw [hretried.2] at hlast
          cases hlast
        · exact absurd hretried.1 (UInt32.not_lt.2 hlast)
      obtain rfl := hprecedes.closed hclosed
      refine ⟨rfl, fun id hid => ?_⟩
      exact (run_followed s clock (steps ++ more)).woven.not_mem_of_closed
        (run_sound s clock (steps ++ more)).distinct (List.mem_of_getElem? ht') hclosed hid

end Course
end CrawlCluster.Coordinator
