import CrawlCluster.Proofs.Coordinator.AtLeastOnce
import CrawlCluster.Proofs.Coordinator.Attempts
import CrawlCluster.Proofs.Coordinator.Deciding

set_option autoImplicit false

namespace CrawlCluster

theorem Store.putLease_perm_of_not_mem {job : Job} {table : List Job}
    (h : ∀ row ∈ table, row.id ≠ job.id) : (putLease job table).Perm (job :: table) := by
  induction table with
  | nil => exact .refl _
  | cons row table ih =>
    rw [putLease, if_neg (h row (List.mem_cons_self ..))]
    split
    · exact .refl _
    · exact ((ih fun other hother => h other (List.mem_cons_of_mem row hother)).cons row).trans
        (.swap ..)

namespace Coordinator

open Attempt (GaveUp RanOut)
variable {s : Settings} {st mid : State ScriptedStore} {q : Queued} {queue : List Queued}

/-- The ways a request for a job can end: what is answered, and the state left behind. -/
inductive Taking (s : Settings) (st : State ScriptedStore) :
    Except JobError Assignment → State ScriptedStore → Prop where
  | spider (t : Int64) {q : Queued} {queue : List Queued} {left : State ScriptedStore}
      (hqueue : st.store.store.queue = q :: queue)
      (hbooks : left.plain.books =
        { st.plain.books with store := ({ st.store.store with queue } : Store).grant t q.job }) :
      Taking s st (.ok (.spider q.job.id q.job.url
        (({ st.store.store with queue } : Store).grantTime t) q.job.timeout)) left
  | directed {assignment : Assignment} {directive : Directive} {left : State ScriptedStore}
      (hdirective : assignment = .crawl directive ∨ assignment = .idle directive)
      (hstore : left.store.store = st.store.store) : Taking s st (.ok assignment) left
  | failed (error : JobError) {left : State ScriptedStore}
      (hbooks : left.plain.books = st.plain.books)
      (hother : ¬GaveUp s.retry.maxRetries .enqueue (made st left)) :
      Taking s st (.error error) left
  | putBack (error : JobError) (t : Int64) {q : Queued} {queue : List Queued}
      {left : State ScriptedStore} (hqueue : st.store.store.queue = q :: queue)
      (hbooks : left.plain.books = { st.plain.books with
        store := ({ st.store.store with queue } : Store).enqueue t
          (returnEntry q.job q.job.retries) })
      (hdone : ¬GaveUp s.retry.maxRetries .enqueue (made st left)) :
      Taking s st (.error error) left
  | lost (error : JobError) {q : Queued} {queue : List Queued} {left : State ScriptedStore}
      (hqueue : st.store.store.queue = q :: queue)
      (hbooks : left.plain.books =
        { st.plain.books with store := { st.store.store with queue } })
      (hgaveUp : GaveUp s.retry.maxRetries .enqueue (made st left)) :
      Taking s st (.error error) left

abbrev Takes (s : Settings) (st : State ScriptedStore)
    (run : Except JobError Assignment × State ScriptedStore) : Prop :=
  Taking s st run.1 run.2

theorem takes_grant [ScanOrder] (now : Int64) (hqueue : st.store.store.queue = q :: queue)
    (hbooks : mid.plain.books = { st.plain.books with store := { st.store.store with queue } })
    (hlater : Later st mid) : Takes s st ((grant q.job).run (s.scriptedSite now) mid) := by
  have hstore : mid.store.store = { st.store.store with queue } := congrArg Books.store hbooks
  apply run_asked
  intro reply next hasked
  cases hasked with
  | carried t _ hbooks₁ =>
    rw [hbooks, hstore] at hbooks₁
    rw [hstore]
    exact .spider t hqueue hbooks₁
  | givenUp error hlater₁ hbooks₁ =>
    rw [hbooks] at hbooks₁
    have hstore₁ : next.store.store = { st.store.store with queue } :=
      congrArg Books.store hbooks₁
    apply run_asked
    intro reply left hasked
    cases hasked with
    | carried t hlater₂ hbooks₂ _ hmade =>
      rw [hbooks₁, hstore₁] at hbooks₂
      have hall := (hlater.trans hlater₁).made_trans hlater₂
      rw [hmade, ← List.append_assoc] at hall
      refine .putBack _ t hqueue hbooks₂ (Attempt.not_gaveUp (a := ⟨.enqueue, { now := t }⟩) ?_ ?_)
      · exact (congrArg List.getLast? hall).trans List.getLast?_concat
      · simp [Attempt.Failed]
    | givenUp _ hlater₂ hbooks₂ _ hgaveUp =>
      rw [hbooks₁] at hbooks₂
      have hall := (hlater.trans hlater₁).made_trans hlater₂
      exact .lost _ hqueue hbooks₂ (hall ▸ hgaveUp.append _)

theorem takes_direct [ScanOrder] (now : Int64) (awaited fresh : Option Directive)
    (hstore : mid.store.store = st.store.store) :
    Takes s st ((direct now awaited fresh).run (s.scriptedSite now) mid) := by
  cases fresh with
  | some directive => exact .directed (.inr rfl) hstore
  | none => exact .directed (.inl rfl) hstore

theorem takes_takeAt [ScanOrder] (now : Int64) (awaited : Option Directive) (n : Nat)
    (hbooks : mid.plain.books = st.plain.books) (hlater : Later st mid) :
    Takes s st ((takeAt s now awaited n).run (s.scriptedSite now) mid) := by
  have hstore : mid.store.store = st.store.store := congrArg Books.store hbooks
  unfold takeAt
  split
  · apply run_asked
    intro reply next hasked
    cases hasked with
    | carried t hlater₁ hbooks₁ =>
      rw [hbooks, hstore] at hbooks₁
      cases hqueue : st.store.store.queue with
      | nil =>
        simp only [Store.perform, Store.takeTop, hstore, hqueue] at hbooks₁ ⊢
        exact takes_direct now _ _ (congrArg Books.store hbooks₁)
      | cons q queue =>
        simp only [Store.perform, Store.takeTop, hstore, hqueue] at hbooks₁ ⊢
        exact takes_grant now hqueue hbooks₁ (hlater.trans hlater₁)
    | givenUp error hlater₁ hbooks₁ hfailures hgaveUp =>
      rw [hbooks] at hbooks₁
      have hother : ¬GaveUp s.retry.maxRetries .enqueue (made st next) := by
        rw [hlater.made_trans hlater₁]
        exact hgaveUp.exclusive hfailures (by simp [StoreCall.kind]) _
      cases error with
      | notFound => exact takes_direct now _ _ (congrArg Books.store hbooks₁)
      | transient text => exact .failed _ hbooks₁ hother
      | unreachable text => exact .failed _ hbooks₁ hother
  · exact takes_direct now _ _ hstore

theorem taking_takeJob [ScanOrder] (s : Settings) (now : Int64) (st : State ScriptedStore) :
    Takes s st ((takeJob s).run (s.scriptedSite now) st) := by
  rw [run_takeJob]
  apply run_queried
  intro reply mid hasked
  cases hasked with
  | carried t hlater hbooks => exact takes_takeAt now _ _ hbooks hlater
  | givenUp _ hlater hbooks hfailures hgaveUp =>
    refine .failed _ hbooks ?_
    exact hgaveUp.exclusive hfailures (by simp [StoreCall.kind]) []

section Ends

variable {left : State ScriptedStore}

theorem Taking.keeps {error : JobError} (h : Taking s st (.error error) left) :
    ∃ queue nextSeq, left.plain.books =
      { st.plain.books with store := { st.store.store with queue, nextSeq } } := by
  cases h with
  | failed _ hbooks => exact ⟨_, _, hbooks⟩
  | putBack _ t _ hbooks => exact ⟨_, _, hbooks⟩
  | lost _ _ hbooks => exact ⟨_, _, hbooks⟩

theorem Taking.waiting {error : JobError} (h : Taking s st (.error error) left)
    (hn : ¬GaveUp s.retry.maxRetries .enqueue (made st left)) :
    (waiting left.store.store).Perm (waiting st.store.store) := by
  cases h with
  | failed _ hbooks =>
    have hstore : left.store.store = st.store.store := congrArg Books.store hbooks
    rw [hstore]
  | @putBack _ t q queue _ hqueue hbooks =>
    have hstore : left.store.store = _ := congrArg Books.store hbooks
    rw [hstore]
    refine (waiting_enqueue t q.job q.job.retries _).trans ?_
    simp [Coordinator.waiting, hqueue]
  | lost _ _ _ hgaveUp => exact absurd hgaveUp hn

theorem Taking.lost_top {error : JobError} (h : Taking s st (.error error) left)
    (hgaveUp : GaveUp s.retry.maxRetries .enqueue (made st left)) :
    ∃ q, st.store.store.queue = q :: left.store.store.queue := by
  cases h with
  | failed _ _ hother => exact absurd hgaveUp hother
  | putBack _ _ _ _ hdone => exact absurd hgaveUp hdone
  | @lost _ q queue _ hqueue hbooks =>
    have hstore : left.store.store = _ := congrArg Books.store hbooks
    exact ⟨q, by rw [hstore, hqueue]⟩

theorem Taking.leases {id url : String} {leaseTime timeout : Int64}
    (h : Taking s st (.ok (.spider id url leaseTime timeout)) left) :
    ∃ q, st.store.store.queue = q :: left.store.store.queue ∧ q.job.id = id ∧ q.job.url = url ∧
      q.job.timeout = timeout ∧ left.store.store.current =
        Store.putLease { q.job with leaseTime } st.store.store.current := by
  cases h with
  | spider t hqueue hbooks =>
    have hstore : left.store.store = _ := congrArg Books.store hbooks
    exact ⟨_, by rw [hstore, hqueue]; rfl, rfl, rfl, rfl, by rw [hstore]; rfl⟩
  | directed hdirective => simp at hdirective

theorem Taking.leaves {assignment : Assignment} {directive : Directive}
    (h : Taking s st (.ok assignment) left)
    (hdirective : assignment = .crawl directive ∨ assignment = .idle directive) :
    left.store.store = st.store.store := by
  cases h with
  | spider => simp at hdirective
  | directed _ hstore => exact hstore

end Ends

/-- A request for a job that fails leaves the directive awaited, the leases, the failed attempts and
both crawl ids as they were. The queue holds the same jobs as before, apart from their ids, unless
the job taken could not be put back: the call for that ran out of retries, or was told that there
is nothing to find, and is not made again. A request that leases a job moves that job, and no
other, from the queue to the leases; and one that hands out a directive leaves both alone. -/
theorem failed_take_puts_back [ScanOrder] (s : Settings) (now : Int64) (st : State ScriptedStore) :
    let run := (takeJob s).run (s.scriptedSite now) st
    let store := st.store.store
    let left := run.2.store.store
    (∀ error, run.1 = .error error →
      run.2.outstanding = st.outstanding ∧ left.current = store.current ∧
      left.failed = store.failed ∧ run.2.crawlId = st.crawlId ∧ left.crawlId = store.crawlId ∧
      (¬GaveUp s.retry.maxRetries .enqueue (made st run.2) →
        (waiting left).Perm (waiting store)) ∧
      (GaveUp s.retry.maxRetries .enqueue (made st run.2) →
        ∃ q, store.queue = q :: left.queue)) ∧
    (∀ id url leaseTime timeout, run.1 = .ok (.spider id url leaseTime timeout) →
      ∃ q, store.queue = q :: left.queue ∧ q.job.id = id ∧ q.job.url = url ∧
        q.job.timeout = timeout ∧
        (∀ other, left.leased? other =
          if id = other then some { q.job with leaseTime } else store.leased? other) ∧
        ((∀ row ∈ store.current, row.id ≠ id) →
          left.current.Perm ({ q.job with leaseTime } :: store.current))) ∧
    ∀ directive, run.1 = .ok (.crawl directive) ∨ run.1 = .ok (.idle directive) →
      left.queue = store.queue ∧ left.current = store.current := by
  intro run store left
  have htaking : Taking s st run.1 run.2 := taking_takeJob s now st
  refine ⟨?_, ?_, ?_⟩
  · intro error herror
    rw [herror] at htaking
    obtain ⟨queue, nextSeq, hbooks⟩ := htaking.keeps
    exact ⟨congrArg Books.outstanding hbooks, congrArg (·.store.current) hbooks,
      congrArg (·.store.failed) hbooks, congrArg Books.crawlId hbooks,
      congrArg (·.store.crawlId) hbooks, htaking.waiting, htaking.lost_top⟩
  · intro id url leaseTime timeout hok
    rw [hok] at htaking
    obtain ⟨q, hqueue, rfl, hurl, htimeout, hcurrent⟩ := htaking.leases
    refine ⟨q, hqueue, rfl, hurl, htimeout, ?_, ?_⟩
    · intro other
      rw [Store.leased?, hcurrent]
      exact Store.find?_putLease _ other store.current
    · intro hfree
      rw [hcurrent]
      exact Store.putLease_perm_of_not_mem hfree
  · intro directive hok
    have hstore : left = store := by
      rcases hok with hok | hok
      · exact (hok ▸ htaking).leaves (.inl rfl)
      · exact (hok ▸ htaking).leaves (.inr rfl)
    rw [hstore]
    exact ⟨rfl, rfl⟩

def downAtLease (after : Option StoreError) : State ScriptedStore :=
  { store :=
      { store :=
          { queue := [⟨0, { id := "job-0", timeout := 10, url := "https://x" }⟩], nextSeq := 1 }
        turns := fun n =>
          { now := 1000
            fault := if n < 2 then none
              else if n < 6 then some (.transient "connection lost") else after } } }

/-- The lease cannot be written, and the job is put back under another id. -/
theorem failed_take_puts_back_recovered :
    let s : Settings := { minQueued := 1 }
    let run := (takeJob s).run (s.scriptedSite 1000) (downAtLease none)
    run.1 = .error (.store (.unreachable "transient store failure: connection lost")) ∧
      (waiting run.2.store.store).Perm (waiting (downAtLease none).store.store) ∧
      run.2.store.store.ids = ["job-1"] := by
  intro s run
  have hrun : run.1 = .error (.store (.unreachable "transient store failure: connection lost")) :=
    by decide +kernel
  obtain ⟨hfailed, -, -⟩ := failed_take_puts_back s 1000 (downAtLease none)
  obtain ⟨-, -, -, -, -, hputBack, -⟩ := hfailed _ hrun
  exact ⟨hrun, hputBack (by decide +kernel), by decide +kernel⟩

/-- The job is lost although the call that was to put it back was made only once. -/
theorem put_back_missed :
    let s : Settings := { minQueued := 1 }
    let run := (takeJob s).run (s.scriptedSite 1000) (downAtLease (some .notFound))
    (∃ error, run.1 = .error error) ∧
      ¬RanOut s.retry.maxRetries .enqueue (made (downAtLease (some .notFound)) run.2) ∧
      ¬(waiting run.2.store.store).Perm (waiting (downAtLease (some .notFound)).store.store) := by
  intro s run
  have hrun : run.1 = .error (.store (.unreachable "transient store failure: connection lost")) :=
    by decide +kernel
  refine ⟨⟨_, hrun⟩, by decide +kernel, ?_⟩
  intro hperm
  have hlength : (waiting run.2.store.store).length = 0 := by decide +kernel
  rw [hperm.length_eq] at hlength
  simp [waiting, downAtLease] at hlength

end Coordinator
end CrawlCluster
