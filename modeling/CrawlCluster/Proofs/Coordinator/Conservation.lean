import CrawlCluster.Proofs.Coordinator.Transition

set_option autoImplicit false

namespace CrawlCluster

namespace Store

def load (s : Store) : Nat := s.queue.length + s.current.length

theorem length_ids (s : Store) : s.ids.length = s.load := by
  simp [ids, load]

theorem load_enqueue (now : Int64) (entry : Enqueue) (s : Store) :
    (s.enqueue now entry).load = s.load + 1 := by
  rw [← length_ids, ← length_ids]
  exact (ids_enqueue now entry s).length_eq

theorem load_retire {job : Job} {s : Store} (h : Ordered s.current)
    (hjob : s.leased? job.id = some job) : s.load = (s.retire job.id).load + 1 := by
  rw [← length_ids, ← length_ids]
  exact (ids_retire h hjob).length_eq

theorem load_regrant {job : Job} {s : Store} (h : Ordered s.current)
    (hjob : s.leased? job.id = some job) (now : Int64) : (s.grant now job).load = s.load := by
  have hmem := ((leased?_eq_some_iff h).1 hjob).1
  rw [← length_ids, ← length_ids, ids_grant_of_mem now h (List.mem_map_of_mem hmem)]

theorem Distinct.load_lease {s : Store} {q : Queued} {queue : List Queued} (h : s.Distinct)
    (hqueue : s.queue = q :: queue) (now : Int64) :
    (({ s with queue } : Store).grant now q.job).load = s.load := by
  rw [← length_ids, ← length_ids]
  exact (h.takeTop_grant hqueue now).length_eq.symm

end Store

namespace Coordinator

def total {α : Type} (count : α → Nat) : List α → Nat
  | [] => 0
  | item :: items => count item + total count items

theorem total_append {α : Type} (count : α → Nat) (items more : List α) :
    total count (items ++ more) = total count items + total count more := by
  induction items with
  | nil => simp [total]
  | cons item items ih => simp [total, ih, Nat.add_assoc]

theorem total_map {α β : Type} {n : Nat} (count : β → Nat) (f : α → β)
    (h : ∀ item, count (f item) = n) (items : List α) :
    total count (items.map f) = n * items.length := by
  induction items with
  | nil => rfl
  | cons item items ih => simp [total, ih, h, Nat.mul_succ, Nat.add_comm]

def Move.enters : Move → Nat
  | .enter _ => 1
  | .adopt _ | .lease .. | .renew .. | .finish _ | .fail _ => 0

def Move.finishes : Move → Nat
  | .finish _ => 1
  | .adopt _ | .enter _ | .lease .. | .renew .. | .fail _ => 0

/-- The store accounts for the jobs that came in, given how many went finished. The numbers given
out went to jobs that came in and to jobs put back. -/
structure Balanced (s : Settings) (came went : Nat) (store : Store) : Prop where
  jobs : came = store.load + went + store.failed.countP fun failed => !s.retries failed
  numbers : store.nextSeq = came + store.failed.countP s.retries

variable {s : Settings} {came went : Nat}

theorem Moved.balanced {move : Move} {store left : Store} (h : Moved s move store left)
    (hd : store.Distinct) (hb : Balanced s came went store) :
    Balanced s (came + move.enters) (went + move.finishes) left := by
  obtain ⟨hjobs, hnumbers⟩ := hb
  cases h with
  | adopt crawlId => exact ⟨hjobs, hnumbers⟩
  | enter now job =>
    have hload := store.load_enqueue now (newEntry s job)
    refine ⟨?_, ?_⟩
    · rw [hload]
      simp only [Move.enters, Move.finishes, Store.enqueue]
      omega
    · simp only [Move.enters, Store.enqueue]
      omega
  | lease now hqueue =>
    refine ⟨?_, hnumbers⟩
    rw [hd.load_lease hqueue now]
    exact hjobs
  | renew now hjob =>
    refine ⟨?_, hnumbers⟩
    rw [Store.load_regrant hd.ordered hjob now]
    exact hjobs
  | finish hjob =>
    refine ⟨?_, hnumbers⟩
    have hload := Store.load_retire hd.ordered hjob
    simp only [Move.enters, Move.finishes, Store.retire] at hload ⊢
    omega
  | @drop failed _ hjob hretries =>
    have hload : (store.recordFailure failed).load = _ := Store.load_retire hd.ordered hjob
    have hrecord : (store.recordFailure failed).load = store.load := rfl
    have hfailed : ((store.recordFailure failed).retire failed.job.id).failed =
        store.failed ++ [failed] := rfl
    refine ⟨?_, ?_⟩
    · simp only [Move.enters, Move.finishes, hfailed, List.countP_append, List.countP_singleton,
        hretries]
      simp only [Bool.not_false, if_true]
      omega
    · rw [hfailed, List.countP_append, List.countP_singleton, if_neg (by simp [hretries])]
      exact hnumbers
  | @retry now failed _ hjob hretries =>
    have henqueue := (store.recordFailure failed).load_enqueue now
      (returnEntry failed.job (failed.job.retries + 1))
    have hload : ((store.recordFailure failed).enqueue now
        (returnEntry failed.job (failed.job.retries + 1))).load = _ :=
      Store.load_retire hd.ordered hjob
    have hrecord : (store.recordFailure failed).load = store.load := rfl
    have hfailed : (((store.recordFailure failed).enqueue now
        (returnEntry failed.job (failed.job.retries + 1))).retire failed.job.id).failed =
          store.failed ++ [failed] := rfl
    refine ⟨?_, ?_⟩
    · simp only [Move.enters, Move.finishes, hfailed, List.countP_append, List.countP_singleton,
        hretries]
      simp only [Bool.not_true, Bool.false_eq_true, if_false]
      omega
    · rw [hfailed, List.countP_append, List.countP_singleton, if_pos hretries]
      simp only [Move.enters, Store.retire, Store.enqueue, Store.recordFailure]
      omega

theorem Moves.balanced {moves : List Move} {store left : Store} (h : Moves s moves store left)
    (hd : store.Distinct) (hb : Balanced s came went store) :
    Balanced s (came + total Move.enters moves) (went + total Move.finishes moves) left := by
  induction h generalizing came went with
  | nil store => exact hb
  | cons first rest ih =>
    have hrest := ih (first.distinct hd).1 (first.balanced hd hb)
    simpa [total, Nat.add_assoc] using hrest

namespace Request

def admitted (request : Request) (result : Except JobError Answer) : Nat :=
  match request, result with
  | .upload jobs, .ok _ => jobs.length
  | .harvest brought, .ok _ => brought.jobs.length
  | _, _ => 0

def succeeded (request : Request) (result : Except JobError Answer) : Nat :=
  match request, result with
  | .report _ _ said, .ok _ => if said.outcome.isSuccess then 1 else 0
  | _, _ => 0

end Request

theorem total_enter (jobs : List NewJob) :
    total Move.enters (jobs.map .enter) = jobs.length ∧
      total Move.finishes (jobs.map .enter) = 0 := by
  have henters := total_map (n := 1) Move.enters Move.enter (fun _ => rfl) jobs
  have hfinishes := total_map (n := 0) Move.finishes Move.enter (fun _ => rfl) jobs
  omega

theorem total_fail (failures : List FailedJob) :
    total Move.enters (failures.map .fail) = 0 ∧
      total Move.finishes (failures.map .fail) = 0 := by
  have henters := total_map (n := 0) Move.enters Move.fail (fun _ => rfl) failures
  have hfinishes := total_map (n := 0) Move.finishes Move.fail (fun _ => rfl) failures
  omega

theorem total_adopting (crawlId : Int32) (b : Books) :
    total Move.enters (adopting crawlId b) = 0 ∧
      total Move.finishes (adopting crawlId b) = 0 := by
  unfold adopting
  split <;> exact ⟨rfl, rfl⟩

theorem Transition.balanced [ScanOrder] {now : Int64} {request : Request}
    {result : Except JobError Answer}
    {b left : Books} (h : Transition s now request result b left) (hd : b.store.Distinct)
    (hb : Balanced s came went b.store) :
    Balanced s (came + request.admitted result) (went + request.succeeded result)
      left.store := by
  cases h with
  | vacant => exact hb
  | @admitted jobs _ _ _ hmoves =>
    have hleft := hmoves.balanced hd hb
    obtain ⟨henters, hfinishes⟩ := total_enter jobs
    rw [henters, hfinishes] at hleft
    exact hleft
  | @harvested brought _ _ _ hmoves =>
    have hleft := hmoves.balanced hd hb
    obtain ⟨henters, hfinishes⟩ := total_enter brought.jobs
    obtain ⟨hadopts, hadopts'⟩ := total_adopting brought.directive.crawlId b
    rw [total_append, total_append, henters, hfinishes, hadopts, hadopts', Nat.zero_add] at hleft
    exact hleft
  | deprecated => exact hb
  | leased _ hmove => exact hmove.balanced hd hb
  | idle => exact hb
  | directed => exact hb
  | renewed _ hmove => exact hmove.balanced hd hb
  | renewalRejected => exact hb
  | finished _ hsuccess hmove =>
    have hleft := hmove.balanced hd hb
    rw [Request.succeeded, if_pos hsuccess]
    exact hleft
  | failed _ hfailure hmove =>
    have hleft := hmove.balanced hd hb
    rw [Request.succeeded, hfailure]
    exact hleft
  | reportRejected => exact hb
  | swept hmoves =>
    have hleft := hmoves.balanced hd hb
    rw [(total_fail _).1, (total_fail _).2] at hleft
    exact hleft

namespace Entry

def admitted (s : Settings) (entry : Entry) : Nat :=
  match entry.operation.read s with
  | .ok request => request.admitted entry.result
  | .error _ => 0

def succeeded (s : Settings) (entry : Entry) : Nat :=
  match entry.operation.read s with
  | .ok request => request.succeeded entry.result
  | .error _ => 0

end Entry

def admissions (s : Settings) (past : List Entry) : Nat := total (Entry.admitted s) past

def successes (s : Settings) (past : List Entry) : Nat := total (Entry.succeeded s) past

theorem Operation.Comes.balanced [ScanOrder] {past : List Entry} {step : Step}
    {result : Except JobError Answer} {b left : Books} (h : Operation.Comes s step result b left)
    (hd : b.store.Distinct) (hb : Balanced s (admissions s past) (successes s past) b.store) :
    Balanced s (admissions s (past ++ [⟨step.operation, result⟩]))
      (successes s (past ++ [⟨step.operation, result⟩])) left.store := by
  simp only [admissions, successes, total_append, total, Entry.admitted, Entry.succeeded,
    Nat.add_zero]
  cases hread : step.operation.read s with
  | error error =>
    obtain ⟨-, rfl⟩ := (Operation.comes_error hread).1 h
    exact hb
  | ok request => exact ((Operation.comes_ok hread).1 h).balanced hd hb

namespace Course

variable [ScanOrder]

theorem run_balanced (s : Settings) (clock : Nat → Int64) (steps : List Step) :
    Balanced s (admissions s (run s clock steps).past) (successes s (run s clock steps).past)
      (run s clock steps).books.store := by
  refine run_keeps s clock
    (fun past b => Balanced s (admissions s past) (successes s past) b.store) [] steps ?_ ?_
  · exact ⟨rfl, rfl⟩
  · intro past b left step result hd hb hcomes
    exact hcomes.balanced hd hb

theorem run_precedes (s : Settings) (clock : Nat → Int64) (steps more : List Step) :
    (run s clock steps).books.store.Precedes (run s clock (steps ++ more)).books.store := by
  refine run_keeps s clock
    (fun _ b => (run s clock steps).books.store.Precedes b.store) steps more (.refl _) ?_
  intro past b left step result hd hb hcomes
  exact hb.trans (hcomes.distinct hd).2

/-- At any time in the life of a coordinator the jobs queued and leased have ids of their own; an
id that is gone stays away; the jobs taken in are those queued, those leased, those finished and
those that failed without being put back; and a new number went to each job that was taken in or
put back, and to no other. -/
theorem jobs_conserved (s : Settings) (clock : Nat → Int64) (steps : List Step) :
    let c := run s clock steps
    let store := c.books.store
    (store.queue.map (·.job.id) ++ store.current.map (·.id)).Nodup ∧
    (∀ id ∈ store.ids, ∀ more later, id ∉ (run s clock (steps ++ more)).books.store.ids →
      id ∉ (run s clock (steps ++ more ++ later)).books.store.ids) ∧
    admissions s c.past = store.queue.length + store.current.length + successes s c.past +
      (store.failed.countP fun failed => !s.retries failed) ∧
    store.nextSeq = admissions s c.past + store.failed.countP s.retries := by
  intro c store
  have hbalanced := run_balanced s clock steps
  have hdistinct := (run_sound s clock steps).distinct
  refine ⟨hdistinct.nodup, ?_, hbalanced.jobs, hbalanced.numbers⟩
  intro id hid more later hgone
  exact (run_precedes s clock steps more).gone hdistinct
    (run_precedes s clock (steps ++ more) later) hid hgone

end Course
end Coordinator
end CrawlCluster
