import CrawlCluster.Proofs.Coordinator.Issuing
import CrawlCluster.Proofs.Coordinator.Transition
import CrawlCluster.Proofs.Store.Queue

set_option autoImplicit false

namespace CrawlCluster.Coordinator

/-- What a job becomes that goes back into the queue for its next try, under the number `seq`. -/
def nextRow (seq : Nat) (job : Job) : Queued :=
  { seq
    job :=
      { id := Store.jobId seq
        leaseTime := 0
        timeout := job.timeout
        priority := job.priority
        url := job.url
        retries := job.retries + 1 } }

/-- The leases of the jobs are retired for having run out, one after the other, and nothing else
happens. -/
structure Reclaimed (s : Settings) (jobs : List Job) (store left : Store) : Prop where
  current : left.current = store.current.filter fun row => row.id ∉ jobs.map (·.id)
  failed : left.failed = store.failed ++ jobs.map overdue
  queue : left.queue.Perm
    (Store.numbered nextRow store.nextSeq (jobs.filter (·.retries < s.maxRetries)) ++ store.queue)
  crawlId : left.crawlId = store.crawlId
  lastLease : left.lastLease = store.lastLease

variable {s : Settings} {job : Job} {jobs : List Job} {store next left : Store}

theorem Reclaimed.none (s : Settings) (store : Store) : Reclaimed s [] store store where
  current := by simp
  failed := by simp
  queue := .refl _
  crawlId := rfl
  lastLease := rfl

theorem Reclaimed.cons (h : Reclaimed s jobs next left)
    (hcurrent : next.current = (store.retire job.id).current)
    (hfailed : next.failed = store.failed ++ [overdue job])
    (hqueue : (job.retries < s.maxRetries ∧ next.nextSeq = store.nextSeq + 1 ∧
        next.queue.Perm (nextRow store.nextSeq job :: store.queue)) ∨
      (¬job.retries < s.maxRetries ∧ next.nextSeq = store.nextSeq ∧ next.queue = store.queue))
    (hcrawlId : next.crawlId = store.crawlId) (hlastLease : next.lastLease = store.lastLease) :
    Reclaimed s (job :: jobs) store left where
  current := by rw [h.current, hcurrent, Store.filter_current_retire]
  failed := by rw [h.failed, hfailed, List.append_assoc, List.map_cons, List.singleton_append]
  queue := by
    have hrest := h.queue
    rcases hqueue with ⟨hretries, hnext, hfirst⟩ | ⟨hretries, hnext, hsame⟩
    · rw [List.filter_cons_of_pos (by simpa using hretries)]
      rw [hnext] at hrest
      exact Store.perm_numbered_cons hfirst hrest
    · rw [List.filter_cons_of_neg (by simpa using hretries)]
      rw [hnext, hsame] at hrest
      exact hrest
  crawlId := h.crawlId.trans hcrawlId
  lastLease := h.lastLease.trans hlastLease

theorem Moves.none_made (h : Moves s [] store left) : left = store := by
  cases h
  rfl

theorem Moves.reclaimed (h : Moves s ((jobs.map overdue).map .fail) store left) :
    Reclaimed s jobs store left := by
  induction jobs generalizing store with
  | nil =>
    cases h
    exact .none s _
  | cons job jobs ih =>
    cases h with
    | cons first rest =>
      cases first with
      | drop hjob hretries =>
        rw [retries_overdue, decide_eq_false_iff_not] at hretries
        exact (ih rest).cons rfl rfl (.inr ⟨hretries, rfl, rfl⟩) rfl rfl
      | retry now hjob hretries =>
        rw [retries_overdue, decide_eq_true_iff] at hretries
        exact (ih rest).cons rfl rfl
          (.inl ⟨hretries, rfl, Store.insertQueued_perm _ store.queue⟩) rfl rfl

def State.mended (clock : Nat → Int64) (st : State ScriptedStore) : State ScriptedStore :=
  { st with store := { st.store with turns := calm clock } }

section Swept

variable [ScanOrder]

theorem filter_not_due (h : Store.Ordered store.current) (before : Int64) :
    store.current.filter (fun row =>
      row.id ∉ ((ScanOrder.scan store).filter (·.isExpired before)).map (·.id)) =
      store.current.filter fun row => !row.isExpired before := by
  refine List.filter_congr fun row hrow => ?_
  simp [h.id_mem_due hrow before]

theorem due_perm (store : Store) (before : Int64) :
    ((ScanOrder.scan store).filter (·.isExpired before)).Perm
      (store.current.filter (·.isExpired before)) :=
  (ScanOrder.perm store).filter _

theorem run_sweep {st : State ScriptedStore} (hworks : st.store.Faultless)
    (hst : Store.Ordered st.store.store.current) (s : Settings) (before now : Int64) :
    let due := (ScanOrder.scan st.store.store).filter (·.isExpired before)
    let run := (sweep s before).run (s.scriptedSite now) st
    run.1 = .ok due.length ∧
      Moves s ((due.map overdue).map .fail) st.store.store run.2.store.store ∧
      run.2.plain.books = { st.plain.books with store := run.2.store.store } ∧
      run.2.store.Faultless := by
  intro due run
  have hensures : (sweep s before).Ensures .working now _ st.plain := sweep_transition before hst
  have hrun : Transition s now (.sweep before) (run.1.map .count) st.plain.books
      run.2.plain.books ∧ run.2.store.Faultless := hensures.run_working hworks
  obtain ⟨htransition, hleft⟩ := hrun
  generalize run.1 = result at htransition ⊢
  generalize hbooks : run.2.plain.books = books at htransition ⊢
  have hstore : run.2.store.store = books.store := congrArg Books.store hbooks
  rw [hstore]
  generalize hanswer : result.map Answer.count = answer at htransition
  cases htransition with
  | swept hmoves =>
    refine ⟨?_, hmoves, rfl, hleft⟩
    cases result with
    | ok count => exact congrArg Except.ok (Answer.count.inj (Except.ok.inj hanswer))
    | error error => contradiction

/-- A sweep retires just the leases that ran out before the given time, and says how many they
were. The other leases stay as they are; each lease retired is recorded as a failure once, and each
job with a try left goes back into the queue once, under an id never given before. A second sweep
for the same time finds nothing to do. The leases are retired in the order in which the table
shows them, whatever that is. -/
theorem sweep_retires_expired (s : Settings) (turns : Nat → Turn) (duties : List (Duty × Int64))
    (clock : Nat → Int64) (before now again : Int64) :
    let start : State ScriptedStore := { store := { turns } }
    let st := (attend s duties start).2.mended clock
    let store := st.store.store
    let due := (ScanOrder.scan store).filter (·.isExpired before)
    let back := due.filter (·.retries < s.maxRetries)
    let run := (sweep s before).run (s.scriptedSite now) st
    let left := run.2.store.store
    let rerun := (sweep s before).run (s.scriptedSite again) run.2
    run.1 = .ok due.length ∧ due.Perm (store.current.filter (·.isExpired before)) ∧
      left.current = store.current.filter (fun job => !job.isExpired before) ∧
      left.failed = store.failed ++ due.map (fun job => ⟨job, .timeout, ""⟩) ∧
      left.queue.Perm (Store.numbered nextRow store.nextSeq back ++ store.queue) ∧
      (∀ n earlier later, duties = earlier ++ later →
        Store.jobId (store.nextSeq + n) ∉ (attend s earlier start).2.store.store.ids) ∧
      left.ids.Nodup ∧ left.crawlId = store.crawlId ∧ left.lastLease = store.lastLease ∧
      run.2.outstanding = st.outstanding ∧ run.2.crawlId = st.crawlId ∧
      run.2.events = st.events ∧
      rerun.1 = .ok 0 ∧ rerun.2.plain.books = run.2.plain.books := by
  intro start st store due back run left rerun
  have hstart : start.store.store.Distinct := Store.distinct_empty
  have hdistinct : store.Distinct := (attend_distinct s duties hstart).1
  have hworks : st.store.Faultless := fun _ => rfl
  obtain ⟨hrun, hmoves, hbooks, hstill⟩ := run_sweep hworks hdistinct.ordered s before now
  have hreclaimed := hmoves.reclaimed
  have hcurrent : left.current = store.current.filter fun job => !job.isExpired before :=
    hreclaimed.current.trans (filter_not_due hdistinct.ordered before)
  have hagain := run_sweep hstill (hcurrent ▸ hdistinct.ordered.filter _) s before again
  have hnone : left.current.filter (·.isExpired before) = [] :=
    (congrArg (List.filter (·.isExpired before)) hcurrent).trans (by simp [List.filter_filter])
  have hdue : (ScanOrder.scan left).filter (·.isExpired before) = [] :=
    List.perm_nil.1 (hnone ▸ due_perm left before)
  rw [hdue] at hagain
  obtain ⟨hrerun, hnothing, hbooks', -⟩ := hagain
  refine ⟨hrun, due_perm store before, hcurrent, hreclaimed.failed, hreclaimed.queue, ?_,
    (hmoves.distinct hdistinct).1.nodup, hreclaimed.crawlId, hreclaimed.lastLease,
    congrArg Books.outstanding hbooks, congrArg Books.crawlId hbooks,
    congrArg Books.events hbooks, hrerun, ?_⟩
  · rintro n earlier later rfl hgiven
    obtain ⟨hearlier, -⟩ := attend_distinct s earlier hstart
    have hlater := (attend_distinct s later hearlier).2
    rw [← attend_append] at hlater
    obtain ⟨m, hm, he⟩ := hearlier.issued _ hgiven
    have hseq := Store.jobId_injective he
    have hle : (attend s earlier start).2.store.store.nextSeq ≤ store.nextSeq := hlater.nextSeq_le
    omega
  · rw [hbooks', hnothing.none_made]
    rfl

end Swept

/-- A lease that was granted through three failures of each call, and ran out. -/
theorem sweep_retires_expired_strained :
    let s : Settings := { minQueued := 1 }
    let st := (attend s (expiring.take 4) { store := { turns := strained } }).2.mended
      fun _ => 12000
    let run := (sweep s 12000).run (s.scriptedSite 12000) st
    st.store.store.current = [⟨"job-0", 1000, 10, 999, "https://x", 0⟩] ∧ run.1 = .ok 1 ∧
      run.2.store.store.current = [] ∧
      run.2.store.store.queue.Perm [⟨1, ⟨"job-1", 0, 10, 999, "https://x", 1⟩⟩] := by
  intro s st run
  have hleased : st.store.store.current = [⟨"job-0", 1000, 10, 999, "https://x", 0⟩] := by
    decide +kernel
  have hqueue : st.store.store.queue = [] := by decide +kernel
  have hnext : st.store.store.nextSeq = 1 := by decide +kernel
  have hswept := sweep_retires_expired s strained (expiring.take 4) (fun _ => 12000) 12000 12000
    12000
  dsimp only [run, st] at hleased hqueue hnext hswept ⊢
  generalize (attend s (expiring.take 4) { store := { turns := strained } }).2.mended
    (fun _ => 12000) = st at hleased hqueue hnext hswept ⊢
  have hdue : (ScanOrder.scan st.store.store).filter (·.isExpired 12000) =
      [⟨"job-0", 1000, 10, 999, "https://x", 0⟩] := by
    change st.store.store.current.filter _ = _
    rw [hleased]
    decide +kernel
  rw [hdue, hleased, hqueue, hnext] at hswept
  obtain ⟨hcount, -, hcurrent, -, hback, -⟩ := hswept
  exact ⟨hleased, hcount, hcurrent, hback⟩

end CrawlCluster.Coordinator
