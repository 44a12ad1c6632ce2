import CrawlCluster.Proofs.Coordinator.Ensures
import CrawlCluster.Proofs.Coordinator.Working
import CrawlCluster.Proofs.Store.Table

set_option autoImplicit false

namespace CrawlCluster.Coordinator

open Program (settle query perform ensures_bind ensures_holding ensures_pure ensures_query
  ensures_record ensures_ofExcept then_ok)

def nextTry (job : Job) : Enqueue := returnEntry job (job.retries + 1)

def waiting (store : Store) : List Enqueue :=
  store.queue.map fun q => returnEntry q.job q.job.retries

def nextTries (s : Settings) (jobs : List Job) : List Enqueue :=
  (jobs.filter (·.retries < s.maxRetries)).map nextTry

/-- The job is still leased, or is in the queue for its next try. -/
def Keeps (store : Store) (job : Job) : Prop :=
  job ∈ store.current ∨ ∃ q ∈ store.queue, q.job.url = job.url ∧ q.job.priority = job.priority ∧
    q.job.timeout = job.timeout ∧ q.job.retries = job.retries + 1

/-- The last thing that was done was to give up on putting a job back. -/
def Interrupted {α : Type} (result : Except JobError α) (calls : List StoreCall.Kind) : Prop :=
  (∃ error, result = .error error) ∧ calls.getLast? = some .enqueue

theorem waiting_enqueue (now : Int64) (job : Job) (retries : UInt32) (store : Store) :
    (waiting (store.enqueue now (returnEntry job retries))).Perm
      (returnEntry job retries :: waiting store) :=
  (Store.insertQueued_perm _ store.queue).map _

theorem keeps_of_waiting {job : Job} {store : Store} (h : nextTry job ∈ waiting store) :
    Keeps store job := by
  obtain ⟨q, hq, he⟩ := List.mem_map.1 h
  simp only [nextTry, returnEntry, Enqueue.mk.injEq] at he
  obtain ⟨hurl, hpriority, hretries, htimeout, -⟩ := he
  exact .inr ⟨q, hq, hurl, hpriority, htimeout, hretries⟩

theorem nextTries_cons (s : Settings) (job : Job) (jobs : List Job) :
    nextTries s (job :: jobs) = nextTries s [job] ++ nextTries s jobs := by
  by_cases h : job.retries < s.maxRetries <;> simp [nextTries, h]

section Parts

variable {s : Settings} {now : Int64} {st : State Store}

/-- A call is carried out at some time, or fails and is the last that was made. -/
theorem failing_query [ScanOrder] {call : StoreCall}
    {goal : Except JobError call.Reply → State Store → Prop}
    (hdone : ∀ t left, left.store = (st.store.perform t call).2 →
      goal (settle (st.store.perform t call).1) left)
    (hfail : ∀ error left, left.store = st.store → left.calls.getLast? = some call.kind →
      goal (.error (.store error)) left) :
    (query call).Ensures .failing now goal st := by
  rw [ensures_query]
  rintro reply _ ⟨store, repeats, slept, ⟨t, ht⟩ | ⟨⟨error, rfl⟩, rfl⟩, rfl⟩
  · have hgoal := hdone t
    rw [ht] at hgoal
    exact hgoal _ rfl
  · exact hfail error _ rfl (by simp [List.getLast?_replicate])

theorem failing_fenced [ScanOrder] {lease : Lease} {goal : Except JobError Job → State Store → Prop}
    (hheld : ∀ job left, st.store.held? lease = some job → left.store = st.store →
      goal (.ok job) left)
    (hfail : ∀ error left, left.store = st.store → goal (.error error) left) :
    (fenced lease).Ensures .failing now goal st := by
  unfold fenced
  rw [ensures_bind]
  apply failing_query
  · intro t left hleft
    simp only [Store.perform, settle, then_ok] at hleft ⊢
    split
    · next hcurrent =>
      obtain ⟨job, hjob, htime⟩ := Option.map_eq_some_iff.1 hcurrent
      rw [ensures_bind]
      rintro reply _ ⟨store, repeats, slept, ⟨t, ht⟩ | ⟨⟨error, rfl⟩, rfl⟩, rfl⟩
      · simp only [hleft, Store.perform, hjob, Prod.mk.injEq] at ht
        obtain ⟨rfl, rfl⟩ := ht
        exact hheld job _ (Store.held?_eq_some_iff.2 ⟨hjob, htime⟩) rfl
      · cases error with
        | notFound => exact hfail _ _ hleft
        | transient text => exact hfail _ _ hleft
        | unreachable text => exact hfail _ _ hleft
    · exact hfail _ _ hleft
  · intro error left hleft _
    exact hfail _ left hleft

/-- Whatever fails, the job is still leased, or its next try is in the queue, or putting it back
was the last thing tried. -/
theorem failing_reclaim [ScanOrder] {goal : Except JobError Bool → State Store → Prop} {job : Job}
    (hjob : st.store.leased? job.id = some job)
    (hstop : ∀ error left, left.store.current = st.store.current →
      left.store.queue = st.store.queue → left.calls.getLast? ≠ some .enqueue →
      goal (.error error) left)
    (hlost : job.retries < s.maxRetries → ∀ error left,
      left.store.current = (st.store.retire job.id).current → left.store.queue = st.store.queue →
      left.calls.getLast? = some .enqueue → goal (.error error) left)
    (hdone : ∀ left, left.store.current = (st.store.retire job.id).current →
      (waiting left.store).Perm (nextTries s [job] ++ waiting st.store) → goal (.ok true) left) :
    (reclaim s job).Ensures .failing now goal st := by
  unfold reclaim
  rw [ensures_holding, ensures_bind]
  apply failing_query
  · intro t left hleft
    simp only [Store.perform, settle, then_ok, hjob, Option.map_some, if_true] at hleft ⊢
    rw [ensures_bind]
    apply failing_query
    · intro t₁ left₁ hleft₁
      simp only [Store.perform, settle, then_ok, hleft] at hleft₁ ⊢
      rw [ensures_bind]
      apply failing_query
      · intro t₂ left₂ hleft₂
        simp only [Store.perform, settle, then_ok, hleft₁] at hleft₂ ⊢
        split
        · next hretries =>
          rw [ensures_bind]
          apply failing_query
          · intro t₃ left₃ hleft₃
            simp only [Store.perform, settle, then_ok, hleft₂] at hleft₃ ⊢
            apply hdone
            · rw [hleft₃]
              rfl
            · have hwaiting := waiting_enqueue t₃ job (job.retries + 1)
                ((st.store.recordFailure { job, outcome := .timeout, detail := "" }).retire job.id)
              rw [hleft₃, nextTries, List.filter_cons_of_pos (by simpa using hretries)]
              exact hwaiting
          · intro error left₃ hleft₃ hlast
            rw [hleft₂] at hleft₃
            refine hlost hretries _ left₃ ?_ ?_ hlast <;> rw [hleft₃] <;> rfl
        · next hretries =>
          apply hdone
          · rw [hleft₂]
            rfl
          · rw [hleft₂, nextTries, List.filter_cons_of_neg (by simpa using hretries)]
            exact .refl _
      · intro error left₂ hleft₂ hlast
        rw [hleft₁] at hleft₂
        refine hstop _ left₂ ?_ ?_ (by simp [hlast, StoreCall.kind]) <;> rw [hleft₂] <;> rfl
    · intro error left₁ hleft₁ hlast
      rw [hleft] at hleft₁
      refine hstop _ left₁ ?_ ?_ (by simp [hlast, StoreCall.kind]) <;> rw [hleft₁]
  · intro error left hleft hlast
    refine hstop _ left ?_ ?_ (by simp [hlast, StoreCall.kind]) <;> rw [hleft]

structure Retired (s : Settings) (gone : List Job) (interrupted : Prop) (store left : Store) :
    Prop where
  current : left.current = store.current.filter fun row => row.id ∉ gone.map (·.id)
  complete : ¬interrupted → (waiting left).Perm (nextTries s gone ++ waiting store)
  short : interrupted → ∃ job ∈ gone, job.retries < s.maxRetries ∧
    (nextTry job :: waiting left).Perm (nextTries s gone ++ waiting store)

theorem Retired.none {interrupted : Prop} {store left : Store}
    (hcurrent : left.current = store.current) (hqueue : left.queue = store.queue)
    (hn : ¬interrupted) : Retired s [] interrupted store left where
  current := by simp [hcurrent]
  complete := by
    intro _
    rw [waiting, hqueue]
    exact .refl _
  short := fun hi => absurd hi hn

theorem Retired.lost {job : Job} {interrupted : Prop} {store left : Store}
    (hretries : job.retries < s.maxRetries)
    (hcurrent : left.current = (store.retire job.id).current) (hqueue : left.queue = store.queue)
    (hi : interrupted) : Retired s [job] interrupted store left where
  current := by
    rw [hcurrent, Store.retire]
    refine List.filter_congr ?_
    intro row _
    by_cases hid : row.id = job.id <;> simp [hid]
  complete := fun hn => absurd hi hn
  short := by
    intro _
    refine ⟨job, List.mem_singleton_self _, hretries, ?_⟩
    rw [waiting, hqueue, nextTries, List.filter_cons_of_pos (by simpa using hretries)]
    exact .refl _

theorem Retired.cons {job : Job} {gone : List Job} {interrupted : Prop} {store next left : Store}
    (hcurrent : next.current = (store.retire job.id).current)
    (hwaiting : (waiting next).Perm (nextTries s [job] ++ waiting store))
    (h : Retired s gone interrupted next left) :
    Retired s (job :: gone) interrupted store left where
  current := by rw [h.current, hcurrent, Store.filter_current_retire]
  complete := by
    intro hn
    rw [nextTries_cons, List.append_assoc]
    exact (h.complete hn).trans ((hwaiting.append_left _).trans
      (List.perm_append_comm_assoc _ _ _))
  short := by
    intro hi
    obtain ⟨lost, hlost, hretries, hperm⟩ := h.short hi
    refine ⟨lost, List.mem_cons_of_mem _ hlost, hretries, ?_⟩
    rw [nextTries_cons, List.append_assoc]
    exact hperm.trans ((hwaiting.append_left _).trans (List.perm_append_comm_assoc _ _ _))

theorem Retired.not_of_complete {gone : List Job} {interrupted : Prop} {store left : Store}
    (h : Retired s gone interrupted store left)
    (hcomplete : (waiting left).Perm (nextTries s gone ++ waiting store)) : ¬interrupted := by
  intro hi
  obtain ⟨job, -, -, hshort⟩ := h.short hi
  have hlength := (hshort.trans hcomplete.symm).length_eq
  rw [List.length_cons] at hlength
  omega

theorem failing_reclaimEach [ScanOrder] (jobs : List Job) (count : Nat)
    (hnodup : (jobs.map (·.id)).Nodup) (hjobs : ∀ job ∈ jobs, st.store.leased? job.id = some job) :
    (reclaimEach s jobs count).Ensures .failing now (fun result left =>
      ∃ gone, gone.Sublist jobs ∧
        Retired s gone (Interrupted result left.calls) st.store left.store) st := by
  induction jobs generalizing count st with
  | nil =>
    refine ⟨[], .slnil, .none rfl rfl ?_⟩
    rintro ⟨⟨error, herror⟩, -⟩
    contradiction
  | cons job jobs ih =>
    obtain ⟨hid, hnodup⟩ := List.nodup_cons.1 hnodup
    rw [reclaimEach, ensures_bind]
    apply failing_reclaim (hjobs job (by simp))
    · intro error left hcurrent hqueue hlast
      exact ⟨[], List.nil_sublist _, .none hcurrent hqueue fun hi => hlast hi.2⟩
    · intro hretries error left hcurrent hqueue hlast
      exact ⟨[job], by simp, .lost hretries hcurrent hqueue ⟨⟨error, rfl⟩, hlast⟩⟩
    · intro left hcurrent hwaiting
      refine (ih _ hnodup ?_).mono ?_
      · intro other hother
        have hne : other.id ≠ job.id := fun he => hid (List.mem_map.2 ⟨other, hother, he⟩)
        rw [Store.leased?, hcurrent]
        refine (Store.leased?_retire job.id other.id st.store).trans ?_
        rw [if_neg hne]
        exact hjobs other (by simp [hother])
      · rintro result left' ⟨gone, hsub, hretired⟩
        exact ⟨job :: gone, hsub.cons_cons job, hretired.cons hcurrent hwaiting⟩

theorem failing_sweep [ScanOrder] (before : Int64) (hst : Store.Ordered st.store.current) :
    (sweep s before).Ensures .failing now (fun result left =>
      ∃ gone, gone.Sublist ((ScanOrder.scan st.store).filter (·.isExpired before)) ∧
        Retired s gone (Interrupted result left.calls) st.store left.store) st := by
  unfold sweep
  rw [ensures_bind]
  apply failing_query
  · intro t left hleft
    simp only [Store.perform, settle, then_ok] at hleft ⊢
    rw [← hleft] at hst ⊢
    apply failing_reclaimEach
    · exact hst.nodup_scan.sublist (List.filter_sublist.map _)
    · intro job hjob
      exact (Store.leased?_eq_some_iff hst).2 ⟨Store.mem_scan.1 (List.mem_of_mem_filter hjob), rfl⟩
  · intro error left hleft hlast
    refine ⟨[], List.nil_sublist _, .none (by rw [hleft]) (by rw [hleft]) ?_⟩
    rintro ⟨-, hlast'⟩
    rw [hlast] at hlast'
    contradiction

theorem Retired.mem_or {gone : List Job} {interrupted : Prop} {store left : Store}
    (h : Retired s gone interrupted store left) (hst : Store.Ordered store.current)
    (hgone : gone ⊆ store.current) {job : Job} (hjob : job ∈ store.current) :
    job ∈ left.current ∨ job ∈ gone := by
  by_cases hid : job.id ∈ gone.map (·.id)
  · obtain ⟨row, hrow, he⟩ := List.mem_map.1 hid
    have hsame := List.inj_on_of_nodup_map hst.nodup (hgone hrow) hjob he
    exact .inr (hsame ▸ hrow)
  · left
    rw [h.current]
    exact List.mem_filter.2 ⟨hjob, by simpa using hid⟩

theorem Retired.keeps {gone : List Job} {interrupted : Prop} {store left : Store}
    (h : Retired s gone interrupted store left) (hst : Store.Ordered store.current)
    (hgone : gone ⊆ store.current) (hn : ¬interrupted) {job : Job} (hjob : job ∈ store.current)
    (hretries : job.retries < s.maxRetries) : Keeps left job := by
  rcases h.mem_or hst hgone hjob with hcurrent | hretired
  · exact .inl hcurrent
  · apply keeps_of_waiting
    refine (h.complete hn).mem_iff.2 (List.mem_append_left _ ?_)
    exact List.mem_map_of_mem (List.mem_filter.2 ⟨hretired, by simpa using hretries⟩)

theorem mem_retire_or {job row : Job} {store : Store} (hst : Store.Ordered store.current)
    (hjob : store.leased? job.id = some job) (hrow : row ∈ store.current) :
    row ∈ (store.retire job.id).current ∨ row = job := by
  by_cases hid : row.id = job.id
  · have hmem := ((Store.leased?_eq_some_iff hst).1 hjob).1
    exact .inr (List.inj_on_of_nodup_map hst.nodup hrow hmem hid)
  · exact .inl (List.mem_filter.2 ⟨hrow, by simpa using hid⟩)

/-- Every job with a try left is kept, but for the one the report is on, if that is done with. -/
def KeptOrDone (s : Settings) (said : Report) (store : Store) (result : Except JobError String)
    (left : Store) : Prop :=
  ∀ job ∈ store.current, job.retries < s.maxRetries → Keeps left job ∨
    (said.lease = ⟨job.id, job.leaseTime⟩ ∧ said.outcome.isRetriable = false ∧
      ∃ text, result = .ok text)

section Report

variable {said : Report} {store left : Store} {result : Except JobError String} {job : Job}

theorem keptOrDone_of_current (h : left.current = store.current) :
    KeptOrDone s said store result left := fun _ hrow _ => .inl (.inl (h ▸ hrow))

theorem keptOrDone_of_retire (hst : Store.Ordered store.current)
    (hjob : store.leased? job.id = some job) (hleft : left.current = (store.retire job.id).current)
    (hend : job.retries < s.maxRetries → Keeps left job ∨
      (said.lease = ⟨job.id, job.leaseTime⟩ ∧ said.outcome.isRetriable = false ∧
        ∃ text, result = .ok text)) : KeptOrDone s said store result left := by
  intro row hrow hretries
  rcases mem_retire_or hst hjob hrow with hkept | rfl
  · exact .inl (.inl (hleft ▸ hkept))
  · exact hend hretries

theorem not_isRetriable_of_isSuccess {outcome : Outcome} (h : outcome.isSuccess = true) :
    outcome.isRetriable = false := by
  cases outcome with
  | success => rfl
  | _ => simp [Outcome.isSuccess] at h

variable [ScanOrder] (hst : Store.Ordered st.store.current)
  (hjob : st.store.leased? job.id = some job) (hlease : said.lease = ⟨job.id, job.leaseTime⟩)

include hst hjob hlease

theorem failing_success (hsuccess : said.outcome.isSuccess = true) :
    (do
      query (.retire job.id)
      perform (.record (.project job.url))
      return finished : Program String).Ensures .failing now
      (fun result left => KeptOrDone s said st.store result left.store) st := by
  rw [ensures_bind]
  apply failing_query
  · intro t left hleft
    simp only [Store.perform, settle, then_ok] at hleft ⊢
    rw [ensures_bind]
    apply ensures_record
    intro left₁ hleft₁
    have hstore : left₁.store = st.store.retire job.id := (congrArg Books.store hleft₁).trans hleft
    rw [then_ok, ensures_pure]
    exact keptOrDone_of_retire hst hjob (congrArg Store.current hstore) fun _ =>
      .inr ⟨hlease, not_isRetriable_of_isSuccess hsuccess, _, rfl⟩
  · intro error left hleft _
    exact keptOrDone_of_current (congrArg Store.current hleft)

theorem failing_failure :
    (do
      query (.recordFailure { job, outcome := said.outcome, detail := said.detail })
      if job.retries < s.maxRetries && said.outcome.isRetriable then
        query (.enqueue (returnEntry job (job.retries + 1)))
      query (.retire job.id)
      return failed : Program String).Ensures .failing now
      (fun result left => KeptOrDone s said st.store result left.store) st := by
  rw [ensures_bind]
  apply failing_query
  · intro t left hleft
    simp only [Store.perform, settle, then_ok] at hleft ⊢
    split
    · next hretried =>
      rw [ensures_bind]
      apply failing_query
      · intro t₁ left₁ hleft₁
        simp only [Store.perform, settle, then_ok, hleft] at hleft₁ ⊢
        rw [ensures_bind]
        apply failing_query
        · intro t₂ left₂ hleft₂
          simp only [Store.perform, settle, then_ok, hleft₁] at hleft₂ ⊢
          rw [ensures_pure]
          have hwaiting := waiting_enqueue t₁ job (job.retries + 1)
            (st.store.recordFailure ⟨job, said.outcome, said.detail⟩)
          have hcurrent := congrArg Store.current hleft₂
          refine keptOrDone_of_retire hst hjob hcurrent fun _ => .inl ?_
          rw [hleft₂]
          exact keeps_of_waiting (hwaiting.mem_iff.2 (List.mem_cons_self ..))
        · intro error left₂ hleft₂ _
          exact keptOrDone_of_current ((congrArg Store.current (hleft₂.trans hleft₁)).trans rfl)
      · intro error left₁ hleft₁ _
        exact keptOrDone_of_current ((congrArg Store.current (hleft₁.trans hleft)).trans rfl)
    · next hdropped =>
      rw [ensures_bind]
      apply failing_query
      · intro t₁ left₁ hleft₁
        simp only [Store.perform, settle, then_ok, hleft] at hleft₁ ⊢
        rw [ensures_pure]
        have hcurrent := congrArg Store.current hleft₁
        refine keptOrDone_of_retire hst hjob hcurrent fun hretries => .inr ⟨hlease, ?_, _, rfl⟩
        simpa [hretries] using hdropped
      · intro error left₁ hleft₁ _
        exact keptOrDone_of_current ((congrArg Store.current (hleft₁.trans hleft)).trans rfl)
  · intro error left hleft _
    exact keptOrDone_of_current (congrArg Store.current hleft)

end Report

theorem failing_report [ScanOrder] (node : Peer) (client : String) (said : Report)
    (hst : Store.Ordered st.store.current) :
    (acceptReport s node client said).Ensures .failing now
      (fun result left => KeptOrDone s said st.store result left.store) st := by
  unfold acceptReport
  rw [ensures_holding, ensures_bind]
  apply failing_fenced
  · intro job left hheld hleft
    obtain ⟨hleased, htime⟩ := Store.held?_eq_some_iff.1 hheld
    have hjob := Store.leased?_of_held? hheld
    have hid : job.id = said.lease.jobId := by simpa using List.find?_some hleased
    have hlease : said.lease = ⟨job.id, job.leaseTime⟩ := by rw [hid, htime]
    rw [then_ok, ensures_bind]
    apply ensures_record
    intro left₁ hleft₁
    have hstore : left₁.store = st.store := (congrArg Books.store hleft₁).trans hleft
    rw [← hstore] at hst hjob ⊢
    rw [then_ok]
    split
    · next hsuccess => exact failing_success hst hjob hlease hsuccess
    · exact failing_failure hst hjob hlease
  · intro error left hleft
    exact keptOrDone_of_current (congrArg Store.current hleft)

end Parts

/-- Leases are retired while any store call may fail. After a report each job with a try left is
kept, unless the report was accepted and said that it is done with. A sweep puts back every job
with a try left that it retires, just when it is not interrupted; else it loses one of them. -/
theorem retirement_keeps_jobs [ScanOrder] (s : Settings) (now : Int64) (st : State ScriptedStore)
    (hst : Store.Ordered st.store.store.current) :
    (∀ node client body,
      let run := (reportJob s node client body).run (s.scriptedSite now) st
      ∀ job ∈ st.store.store.current, job.retries < s.maxRetries →
        Keeps run.2.store.store job ∨ ∃ said text, Report.parse s.delimiters body = .ok said ∧
          said.lease = ⟨job.id, job.leaseTime⟩ ∧ said.outcome.isRetriable = false ∧
          run.1 = .ok text) ∧
    ∀ before,
      let run := (sweep s before).run (s.scriptedSite now) st
      let left := run.2.store.store
      ∃ gone, gone.Sublist ((ScanOrder.scan st.store.store).filter (·.isExpired before)) ∧
        left.current = st.store.store.current.filter (fun row => row.id ∉ gone.map (·.id)) ∧
        ((waiting left).Perm (nextTries s gone ++ waiting st.store.store) ↔
          ¬Interrupted run.1 run.2.calls) ∧
        (¬Interrupted run.1 run.2.calls → ∀ job ∈ st.store.store.current,
          job.retries < s.maxRetries → Keeps left job) ∧
        (Interrupted run.1 run.2.calls → ∃ job ∈ gone, job.retries < s.maxRetries ∧
          (nextTry job :: waiting left).Perm (nextTries s gone ++ waiting st.store.store)) := by
  refine ⟨?_, ?_⟩
  · intro node client body run job hjob hretries
    have hensures : (reportJob s node client body).Ensures .failing now (fun result left =>
        Keeps left.store job ∨ ∃ said text, Report.parse s.delimiters body = .ok said ∧
          said.lease = ⟨job.id, job.leaseTime⟩ ∧ said.outcome.isRetriable = false ∧
          result = .ok text) st.plain := by
      unfold reportJob
      rw [ensures_bind, ensures_ofExcept]
      cases hparse : Report.parse s.delimiters body with
      | error error => exact .inl (.inl hjob)
      | ok said =>
        refine (failing_report node client said hst).mono ?_
        intro result left hgoal
        rcases hgoal job hjob hretries with hkept | ⟨hlease, hdone, text, htext⟩
        · exact .inl hkept
        · exact .inr ⟨said, text, rfl, hlease, hdone, htext⟩
    exact hensures.run_failing
  · intro before run left
    have hensures : (sweep s before).Ensures .failing now _ st.plain := failing_sweep before hst
    obtain ⟨gone, hgone, hretired⟩ := hensures.run_failing
    have hrows : gone ⊆ st.store.store.current := fun job hjob =>
      Store.mem_scan.1 ((hgone.trans List.filter_sublist).subset hjob)
    refine ⟨gone, hgone, hretired.current, ⟨hretired.not_of_complete, hretired.complete⟩, ?_,
      hretired.short⟩
    intro hn job hjob hretries
    exact hretired.keeps hst hrows hn hjob hretries

def downAtPutBack : State ScriptedStore :=
  { store :=
      { store :=
          { current := [{ id := "job-0", leaseTime := 1000, timeout := 10, url := "https://x" }] }
        turns := fun n =>
          { now := 12000, fault := if n < 4 then none else some (.transient "connection lost") } } }

theorem retirement_keeps_jobs_interrupted :
    let s : Settings := {}
    let run := (sweep s 12000).run (s.scriptedSite 12000) downAtPutBack
    Store.Ordered downAtPutBack.store.store.current ∧
      ∃ job ∈ downAtPutBack.store.store.current, job.retries < s.maxRetries ∧
        ¬Keeps run.2.store.store job := by
  intro s run
  have hst : Store.Ordered downAtPutBack.store.store.current := List.pairwise_singleton _ _
  have hinterrupted : Interrupted run.1 run.2.calls :=
    ⟨⟨.store (.unreachable "transient store failure: connection lost"), by decide +kernel⟩,
      by decide +kernel⟩
  have hempty : run.2.store.store.current = [] ∧ run.2.store.store.queue = [] := by decide +kernel
  obtain ⟨gone, hgone, -, -, -, hshort⟩ := (retirement_keeps_jobs s 12000 downAtPutBack hst).2 12000
  obtain ⟨job, hjob, hretries, -⟩ := hshort hinterrupted
  have hrow := Store.mem_scan.1 ((hgone.trans List.filter_sublist).subset hjob)
  refine ⟨hst, job, hrow, hretries, ?_⟩
  simp [Keeps, hempty]

end CrawlCluster.Coordinator
