import CrawlCluster.Proofs.Coordinator.Deciding
import CrawlCluster.Proofs.Coordinator.Masking
import CrawlCluster.Proofs.Coordinator.Retries
import CrawlCluster.Proofs.Store.Queue

/-!
When jobs came in. A store that does not fail goes by its clock, call by call, so the clock reading
at which a job was stored can be read off the number of calls made until then. What the job is
stored with is settled by that reading, once for all its tries.
-/

set_option autoImplicit false

namespace CrawlCluster.Coordinator

variable {α β : Type} {s : Settings} {now : Int64} {clock : Nat → Int64}
  {st : State ScriptedStore}

section OnTime

def OnTime (clock : Nat → Int64) (st : State ScriptedStore) : Prop :=
  ∀ n, st.store.turns n = { now := clock (st.calls.length + n) }

variable [ScanOrder]

namespace OnTime

theorem ask (h : OnTime clock st) (s : Settings) (now : Int64) (call : StoreCall) :
    let asked := st.ask (s.scriptedSite now) call
    asked.1 = (st.store.store.perform (clock st.calls.length) call).1 ∧
      asked.2.store.store = (st.store.store.perform (clock st.calls.length) call).2 ∧
      asked.2.calls.length = st.calls.length + 1 ∧ OnTime clock asked.2 := by
  intro asked
  obtain ⟨slept, -, hask⟩ := ask_outlasts
    (ScriptedStore.runFrom_carried s.retry now call s.retry.maxRetries 0 (h 0))
  have hasked : asked = _ := hask
  rw [hasked]
  refine ⟨rfl, rfl, by simp, ?_⟩
  intro n
  rw [List.length_append, List.length_replicate, Nat.zero_add, Nat.add_assoc, Nat.add_comm 1 n]
  exact h (n + 1)

theorem run (h : OnTime clock st) (s : Settings) (now : Int64) (p : Program α) :
    OnTime clock (p.run (s.scriptedSite now) st).2 := by
  induction p generalizing st with
  | done result => exact h
  | act action next ih =>
    cases action with
    | ask call => exact ih _ (h.ask s now call).2.2.2
    | _ => exact ih _ h

end OnTime

def enterAll (s : Settings) : (readings : Nat → Int64) → List NewJob → Store → Store
  | _, [], store => store
  | readings, job :: jobs, store =>
    enterAll s (fun n => readings (n + 1)) jobs (store.enqueue (readings 0) (newEntry s job))

theorem run_enqueueNew (h : OnTime clock st) (s : Settings) (now : Int64) (index : Nat)
    (jobs : List NewJob) :
    let run := (enqueueNew s index jobs).run (s.scriptedSite now) st
    run.1 = .ok () ∧ run.2.calls.length = st.calls.length + jobs.length ∧
      run.2.store.store =
        enterAll s (fun n => clock (st.calls.length + n)) jobs st.store.store := by
  induction jobs generalizing index st with
  | nil => exact ⟨rfl, rfl, rfl⟩
  | cons job jobs ih =>
    obtain ⟨hreply, hstore, hcalls, hleft⟩ := h.ask s now (.enqueue (newEntry s job))
    obtain ⟨hresult, hmore, hentered⟩ := ih hleft (index + 1)
    intro run
    have hrun : run = _ := Program.run_ask _ (.enqueue (newEntry s job)) _ st
    rw [hreply] at hrun
    have hrest : run = (enqueueNew s (index + 1) jobs).run (s.scriptedSite now)
      (st.ask (s.scriptedSite now) (.enqueue (newEntry s job))).2 := hrun
    rw [hrest]
    refine ⟨hresult, ?_, ?_⟩
    · rw [hmore, hcalls, List.length_cons]
      omega
    · have hreadings : (fun n => clock (st.calls.length + 1 + n)) =
          fun n => clock (st.calls.length + (n + 1)) := by
        funext n
        rw [Nat.add_right_comm, Nat.add_assoc]
      rw [hentered, hstore, hcalls, hreadings]
      rfl

end OnTime

section Entering

theorem nextSeq_enterAll (s : Settings) (readings : Nat → Int64) (jobs : List NewJob)
    (store : Store) : (enterAll s readings jobs store).nextSeq = store.nextSeq + jobs.length := by
  induction jobs generalizing readings store with
  | nil => rfl
  | cons job jobs ih =>
    rw [enterAll, ih, List.length_cons]
    exact Nat.add_right_comm ..

theorem rows_enterAll (s : Settings) (readings : Nat → Int64) (jobs : List NewJob)
    {store : Store} {row : Job} (hrow : row ∈ store.rows) :
    row ∈ (enterAll s readings jobs store).rows := by
  induction jobs generalizing readings store with
  | nil => exact hrow
  | cons job jobs ih =>
    exact ih _ ((store.rows_enqueue _ _).mem_iff.2 (List.mem_cons_of_mem _ hrow))

/-- The nth job is in the store under the nth id, stored at the nth reading. -/
theorem row_enterAll (s : Settings) (readings : Nat → Int64) {jobs : List NewJob}
    (store : Store) {n : Nat} {job : NewJob} (hjob : jobs[n]? = some job) :
    ∃ row ∈ (enterAll s readings jobs store).rows, row.id = Store.jobId (store.nextSeq + n) ∧
      row.work = (newEntry s job).work (readings n) := by
  induction jobs generalizing readings store n with
  | nil => contradiction
  | cons first jobs ih =>
    cases n with
    | zero =>
      obtain rfl := Option.some.inj hjob
      refine ⟨store.entered (readings 0) (newEntry s first), ?_, rfl, rfl⟩
      exact rows_enterAll s _ jobs ((store.rows_enqueue _ _).mem_iff.2 (List.mem_cons_self ..))
    | succ n =>
      obtain ⟨row, hrow, hid, hwork⟩ := ih _ _ hjob
      refine ⟨row, hrow, ?_, hwork⟩
      rw [hid, show (store.enqueue (readings 0) (newEntry s first)).nextSeq = store.nextSeq + 1
        from rfl, Nat.add_right_comm, Nat.add_assoc]

end Entering

section Requests

def Entered (s : Settings) (clock : Nat → Int64) (jobs : List NewJob)
    (left : State ScriptedStore) : Prop :=
  ∃ store, left.store.store =
    enterAll s (fun n => clock (left.calls.length - jobs.length + n)) jobs store

theorem Entered.row {jobs : List NewJob} {left : State ScriptedStore}
    (h : Entered s clock jobs left) {n : Nat} {job : NewJob} (hjob : jobs[n]? = some job) :
    ∃ row ∈ left.store.store.rows,
      row.id = Store.jobId (left.store.store.nextSeq - jobs.length + n) ∧
      row.work = (newEntry s job).work (clock (left.calls.length - jobs.length + n)) := by
  obtain ⟨store, hstore⟩ := h
  let readings := fun n => clock (left.calls.length - jobs.length + n)
  have hnext := nextSeq_enterAll s readings jobs store
  obtain ⟨row, hrow, hid, hwork⟩ := row_enterAll s readings store hjob
  rw [← hstore] at hnext hrow
  refine ⟨row, hrow, ?_, hwork⟩
  rw [hid, hnext, Nat.add_sub_cancel]

variable [ScanOrder]

theorem entered_enqueueNew (h : OnTime clock st) (s : Settings) (now : Int64)
    (jobs : List NewJob) :
    Entered s clock jobs ((enqueueNew s 0 jobs >>= fun _ => pure uploaded).run
      (s.scriptedSite now) st).2 := by
  obtain ⟨-, hcalls, hentered⟩ := run_enqueueNew h s now 0 jobs
  rw [Program.run_map]
  refine ⟨st.store.store, ?_⟩
  rw [hcalls, Nat.add_sub_cancel]
  exact hentered

theorem entered_acceptJobs (h : OnTime clock st) (s : Settings) (now : Int64)
    {jobs : List NewJob} (hjobs : jobs ≠ []) :
    Entered s clock jobs ((acceptJobs s jobs).run (s.scriptedSite now) st).2 := by
  rw [acceptJobs, if_neg (by simpa using hjobs)]
  exact entered_enqueueNew h s now jobs

theorem entered_deliver (h : OnTime clock st) {brought : Harvest} {answer : String}
    (hok : ((deliver s brought).run (s.scriptedSite now) st).1 = .ok answer) :
    Entered s clock brought.jobs ((deliver s brought).run (s.scriptedSite now) st).2 := by
  obtain ⟨_, left, hadopted, hrun⟩ := Program.run_bind_ok hok
  have hleft := h.run s now (adoptCrawlId brought.directive.crawlId)
  rw [hadopted] at hleft
  have hdelivered : (deliver s brought).run (s.scriptedSite now) st = _ := hrun
  rw [hdelivered]
  split
  · have hrecorded : OnTime clock
        { left with events := left.events ++ [.languages brought.languages] } := hleft
    exact entered_enqueueNew hrecorded s now brought.jobs
  · exact entered_enqueueNew hleft s now brought.jobs

theorem entered_upload (h : OnTime clock st) (s : Settings) (now : Int64) (jobs : List NewJob) :
    let run := ((Request.upload jobs).program s).run (s.scriptedSite now) st
    (Request.upload jobs).taken run.1 ≠ [] →
      Entered s clock ((Request.upload jobs).taken run.1) run.2 := by
  intro run htaken
  have hrun : run = _ := Program.run_map (s.scriptedSite now) (acceptJobs s jobs) Answer.text st
  rw [hrun] at htaken ⊢
  cases hresult : ((acceptJobs s jobs).run (s.scriptedSite now) st).1 with
  | error error =>
    rw [hresult] at htaken
    exact absurd rfl htaken
  | ok answer =>
    rw [hresult] at htaken
    exact entered_acceptJobs h s now htaken

theorem entered_harvest (h : OnTime clock st) (s : Settings) (now : Int64) (brought : Harvest) :
    let run := ((Request.harvest brought).program s).run (s.scriptedSite now) st
    (Request.harvest brought).taken run.1 ≠ [] →
      Entered s clock ((Request.harvest brought).taken run.1) run.2 := by
  intro run htaken
  have hrun : run = _ :=
    Program.run_map (s.scriptedSite now) (acceptHarvest s brought) Answer.text st
  rw [hrun] at htaken ⊢
  rcases run_acceptHarvest s (s.scriptedSite now) st brought with
    ⟨-, hdelivered⟩ | ⟨-, hrefused⟩
  · have hconsumed : OnTime clock { st with outstanding := none } := h
    rw [hdelivered] at htaken ⊢
    cases hresult : ((deliver s brought).run (s.scriptedSite now)
        { st with outstanding := none }).1 with
    | error error =>
      rw [hresult] at htaken
      exact absurd rfl htaken
    | ok answer => exact entered_deliver hconsumed hresult
  · rw [hrefused] at htaken
    exact absurd rfl htaken

end Requests

section Weaving

variable {store left : Store} {moves : List Move} {threads : List Thread}

theorem Moves.nextSeq (h : Moves s moves store left) :
    left.nextSeq = store.nextSeq + (moves.flatMap (Move.enqueues s)).length := by
  induction h with
  | nil store => rfl
  | cons first rest ih =>
    rw [ih, first.nextSeq, List.flatMap_cons, List.length_append, Nat.add_assoc]

theorem Thread.Meets.unfailed {t t' : Thread} {next : Nat} {move : Move}
    (h : t.Meets s next move t') (hnone : t'.failures = []) :
    t.failures = [] ∧ t'.ids = t.ids := by
  cases h with
  | stays => exact ⟨hnone, rfl⟩
  | finishes => exact ⟨hnone, rfl⟩
  | drops => simp at hnone
  | retries => simp at hnone

theorem weave_unfailed {next i : Nat} {t t' : Thread} (ht : threads[i]? = some t)
    (ht' : (weave s next moves threads)[i]? = some t') (hnone : t'.failures = []) :
    t.failures = [] ∧ t'.ids = t.ids := by
  induction moves generalizing next threads t with
  | nil =>
    obtain rfl := Option.some.inj (ht.symm.trans ht')
    exact ⟨hnone, rfl⟩
  | cons move moves ih =>
    have hmet : (threads.map (·.meet s next move) ++ move.begins next)[i]? =
        some (t.meet s next move) := by
      rw [List.getElem?_append_left (by simpa using (List.getElem?_eq_some_iff.1 ht).1),
        List.getElem?_map, ht, Option.map_some]
    obtain ⟨hunfailed, hids⟩ := ih hmet ht'
    obtain ⟨hunfailed', hids'⟩ := (t.meets (s := s) next move).unfailed hunfailed
    exact ⟨hunfailed', hids.trans hids'⟩

theorem weave_enter (s : Settings) (next : Nat) (jobs : List NewJob) (threads : List Thread) :
    weave s next (jobs.map .enter) threads = threads ++
      jobs.mapIdx fun n job => { entry := job, ids := [Store.jobId (next + n)] } := by
  induction jobs generalizing next threads with
  | nil => simp [weave]
  | cons job jobs ih =>
    have hmet : threads.map (·.meet s next (.enter job)) = threads := List.map_id' threads
    rw [List.map_cons, weave, hmet, ih, List.mapIdx_cons, List.append_assoc]
    simp only [Move.begins, Move.enqueues, List.length_singleton, Nat.add_zero,
      List.singleton_append]
    simp only [Nat.add_right_comm, Nat.add_assoc]

theorem weave_adopting (s : Settings) (next : Nat) (crawlId : Int32) (b : Books)
    (moves : List Move) (threads : List Thread) :
    weave s next (adopting crawlId b ++ moves) threads = weave s next moves threads := by
  rw [adopting]
  split
  · rfl
  · have hmet : threads.map (·.meet s next (.adopt crawlId)) = threads := List.map_id' threads
    rw [List.singleton_append, weave, hmet]
    simp [Move.begins, Move.enqueues]

/-- The jobs a request brings are the last to move, and enter one after the other. -/
theorem Request.moves_of_taken [ScanOrder] {request : Request} {result : Except JobError Answer}
    {b : Books} (htaken : request.taken result ≠ []) :
    (∀ next threads, weave s next (request.moves result b) threads =
      weave s next ((request.taken result).map .enter) threads) ∧
    (request.moves result b).flatMap (Move.enqueues s) =
      (request.taken result).map (newEntry s) := by
  have henqueues : ∀ jobs : List NewJob,
      (jobs.map Move.enter).flatMap (Move.enqueues s) = jobs.map (newEntry s) := by
    intro jobs
    rw [List.flatMap_map]
    exact List.flatMap_pure_eq_map (newEntry s) jobs
  cases result with
  | error error => cases request <;> exact absurd rfl htaken
  | ok answer =>
    cases request with
    | upload jobs => exact ⟨fun _ _ => rfl, henqueues jobs⟩
    | harvest brought =>
      refine ⟨fun next threads => weave_adopting s next _ b _ threads, ?_⟩
      have hadopting : (adopting brought.directive.crawlId b).flatMap (Move.enqueues s) = [] := by
        rw [adopting]
        split <;> rfl
      rw [moves, List.flatMap_append, hadopting, List.nil_append]
      exact henqueues brought.jobs
    | _ => exact absurd rfl htaken

end Weaving

/-- A job as it came in. -/
structure Arrival where
  entry : NewJob
  /-- What the clock showed when it was stored. -/
  reading : Int64
  /-- The number it entered the queue under. -/
  seq : Nat
  deriving DecidableEq, Repr

structure Arrival.Leads (s : Settings) (store : Store) (a : Arrival) (t : Thread) : Prop where
  entry : t.entry = a.entry
  kept : t.Kept s ((newEntry s a.entry).work a.reading) store
  first : t.failures = [] → t.ids = [Store.jobId a.seq]

/-- Arrivals and threads are of the same jobs, in the order in which these entered. -/
structure Recorded (s : Settings) (arrivals : List Arrival) (threads : List Thread)
    (store : Store) : Prop where
  entries : arrivals.map (·.entry) = threads.map (·.entry)
  leads : ∀ (i : Nat) (a : Arrival) (t : Thread), arrivals[i]? = some a → threads[i]? = some t →
    a.Leads s store t
  ordered : ∀ (i j : Nat) (a b : Arrival), i < j → arrivals[i]? = some a → arrivals[j]? = some b →
    a.seq < b.seq
  numbered : ∀ a ∈ arrivals, a.seq < store.nextSeq

theorem getElem?_append_cases {before after : List α} {i : Nat} {x : α}
    (h : (before ++ after)[i]? = some x) :
    (i < before.length ∧ before[i]? = some x) ∨
      ∃ n, i = before.length + n ∧ after[n]? = some x := by
  by_cases hi : i < before.length
  · rw [List.getElem?_append_left hi] at h
    exact .inl ⟨hi, h⟩
  · obtain ⟨n, rfl⟩ := Nat.exists_eq_add_of_le (Nat.le_of_not_lt hi)
    rw [List.getElem?_append_right (Nat.le_add_right ..), Nat.add_sub_cancel_left] at h
    exact .inr ⟨n, rfl, h⟩

/-- Newcomers stand behind all that came before them. -/
theorem Recorded.append {arrivals more : List Arrival} {threads later : List Thread}
    {store left : Store} (h : Recorded s arrivals threads store)
    (hentries : (arrivals ++ more).map (·.entry) = later.map (·.entry))
    (hgrows : store.nextSeq ≤ left.nextSeq)
    (hold : ∀ {i : Nat} {a : Arrival} {t t' : Thread}, a.Leads s store t → threads[i]? = some t →
      later[i]? = some t' → a.Leads s left t')
    (hnew : ∀ {n : Nat} {a : Arrival} {t : Thread}, more[n]? = some a →
      later[threads.length + n]? = some t →
      a.seq = store.nextSeq + n ∧ a.seq < left.nextSeq ∧ a.Leads s left t) :
    Recorded s (arrivals ++ more) later left := by
  have hlength : arrivals.length = threads.length := by simpa using congrArg List.length h.entries
  have hlater : arrivals.length + more.length = later.length := by
    simpa using congrArg List.length hentries
  have hnumber : ∀ {n : Nat} {a : Arrival}, more[n]? = some a →
      a.seq = store.nextSeq + n ∧ a.seq < left.nextSeq := by
    intro n a ha
    have hn := (List.getElem?_eq_some_iff.1 ha).1
    have hlt : threads.length + n < later.length := by omega
    obtain ⟨hseq, hless, -⟩ := hnew ha (List.getElem?_eq_getElem hlt)
    exact ⟨hseq, hless⟩
  refine ⟨hentries, ?_, ?_, ?_⟩
  · intro i a t ha ht
    rcases getElem?_append_cases ha with ⟨hi, hfirst⟩ | ⟨n, rfl, hlast⟩
    · have hlt : i < threads.length := hlength ▸ hi
      have hthread := List.getElem?_eq_getElem hlt
      exact hold (h.leads i a _ hfirst hthread) hthread ht
    · exact (hnew hlast (hlength ▸ ht)).2.2
  · intro i j a b hij ha hb
    rcases getElem?_append_cases ha with ⟨hi, ha'⟩ | ⟨m, rfl, ha'⟩
    · rcases getElem?_append_cases hb with ⟨-, hb'⟩ | ⟨n, -, hb'⟩
      · exact h.ordered i j a b hij ha' hb'
      · have hearlier := h.numbered a (List.mem_of_getElem? ha')
        have hseq := (hnumber hb').1
        omega
    · rcases getElem?_append_cases hb with ⟨hj, -⟩ | ⟨n, rfl, hb'⟩
      · omega
      · have hfirst := (hnumber ha').1
        have hsecond := (hnumber hb').1
        omega
  · intro a ha
    rcases List.mem_append.1 ha with ha | ha
    · exact Nat.lt_of_lt_of_le (h.numbered a ha) hgrows
    · obtain ⟨n, hn⟩ := List.mem_iff_getElem?.1 ha
      exact (hnumber hn).2

namespace Course

variable [ScanOrder]

def arriving (s : Settings) (clock : Nat → Int64) (c : Course) (step : Step) : List Arrival :=
  let taken := Entry.taken s ⟨step.operation, (c.ask s step).1⟩
  let left := (c.ask s step).2
  taken.mapIdx fun n entry =>
    { entry
      reading := clock (left.calls.length - taken.length + n)
      seq := left.store.store.nextSeq - taken.length + n }

def record (s : Settings) (clock : Nat → Int64) : Course → List Step → List Arrival
  | _, [] => []
  | c, step :: steps => c.arriving s clock step ++ record s clock (c.take s step) steps

/-- All jobs taken in, in the order they came. -/
def arrivals (s : Settings) (clock : Nat → Int64) (steps : List Step) : List Arrival :=
  record s clock { state := { store := .steady clock } } steps

variable {c : Course} {step : Step} {arrivals : List Arrival} {threads : List Thread}

theorem record_append (s : Settings) (clock : Nat → Int64) (c : Course) (steps more : List Step) :
    record s clock c (steps ++ more) =
      record s clock c steps ++ record s clock (steps.foldl (take s) c) more := by
  induction steps generalizing c with
  | nil => rfl
  | cons step steps ih => rw [List.cons_append, record, record, ih, List.append_assoc,
      List.foldl_cons]

theorem arrivals_append (s : Settings) (clock : Nat → Int64) (steps more : List Step) :
    Course.arrivals s clock (steps ++ more) =
      Course.arrivals s clock steps ++ record s clock (run s clock steps) more :=
  record_append s clock _ steps more

theorem run_onTime (s : Settings) (clock : Nat → Int64) (steps : List Step) :
    OnTime clock (run s clock steps).state := by
  induction steps using List.reverseRecOn with
  | nil =>
    intro n
    exact congrArg (fun n => Turn.mk (clock n) none) (Nat.zero_add n).symm
  | append_singleton steps last ih =>
    rw [run_snoc]
    exact ih.run s last.now (last.operation.program s)

theorem entered_ask (hc : OnTime clock c.state)
    (htaken : Entry.taken s ⟨step.operation, (c.ask s step).1⟩ ≠ []) :
    Entered s clock (Entry.taken s ⟨step.operation, (c.ask s step).1⟩) (c.ask s step).2 := by
  cases hread : step.operation.read s with
  | error error => exact absurd (by simp [Entry.taken, hread]) htaken
  | ok request =>
    have hrun : c.ask s step = (request.program s).run (s.scriptedSite step.now) c.state :=
      Operation.run_of_read hread
    have htold : Entry.taken s ⟨step.operation, (c.ask s step).1⟩ =
        request.taken (c.ask s step).1 := by
      simp [Entry.taken, hread]
    rw [htold] at htaken ⊢
    rw [hrun] at htaken ⊢
    cases request with
    | upload jobs => exact entered_upload hc s step.now jobs htaken
    | harvest brought => exact entered_harvest hc s step.now brought htaken
    | _ => exact absurd (by simp [Request.taken]) htaken

theorem arriving_eq_some {n : Nat} {a : Arrival}
    (h : (c.arriving s clock step)[n]? = some a) :
    let taken := Entry.taken s ⟨step.operation, (c.ask s step).1⟩
    let left := (c.ask s step).2
    taken[n]? = some a.entry ∧ a.reading = clock (left.calls.length - taken.length + n) ∧
      a.seq = left.store.store.nextSeq - taken.length + n := by
  intro taken left
  rw [arriving, List.getElem?_mapIdx] at h
  obtain ⟨entry, hentry, rfl⟩ := Option.map_eq_some_iff.1 h
  exact ⟨hentry, rfl, rfl⟩

theorem map_entry_arriving (s : Settings) (clock : Nat → Int64) (c : Course) (step : Step) :
    (c.arriving s clock step).map (·.entry) =
      Entry.taken s ⟨step.operation, (c.ask s step).1⟩ := by
  refine List.ext_getElem? fun n => ?_
  rw [arriving, List.getElem?_map, List.getElem?_mapIdx, Option.map_map]
  exact Option.map_id'

/-- What an operation that brings jobs does to the threads. -/
theorem Sound.weave_taken (hc : c.Sound) (threads : List Thread)
    (htaken : Entry.taken s ⟨step.operation, (c.ask s step).1⟩ ≠ []) :
    let taken := Entry.taken s ⟨step.operation, (c.ask s step).1⟩
    let next := c.books.store.nextSeq
    weave s next (c.moves s step) threads = threads ++
        taken.mapIdx (fun n job => { entry := job, ids := [Store.jobId (next + n)] }) ∧
      (c.take s step).books.store.nextSeq = next + taken.length := by
  intro taken next
  have hmade := (hc.made (s := s) step).nextSeq
  cases hread : step.operation.read s with
  | error error => exact absurd (by simp [Entry.taken, hread]) htaken
  | ok request =>
    have htold : taken = request.taken (c.ask s step).1 := by
      simp [taken, Entry.taken, hread]
    have hmoves : c.moves s step = request.moves (c.ask s step).1 c.books := by
      simp [Course.moves, hread]
    have hrequest : request.taken (c.ask s step).1 ≠ [] := by
      rw [← htold]
      exact htaken
    obtain ⟨hweave, hgiven⟩ := Request.moves_of_taken (s := s) (b := c.books) hrequest
    rw [hmoves, hgiven, List.length_map, ← htold] at hmade
    rw [hmoves, hweave, ← htold]
    exact ⟨weave_enter s next taken threads, hmade⟩

theorem Sound.arrives (hc : c.Sound) (htime : OnTime clock c.state)
    (hf : Followed s threads c.books.store) {n : Nat} {a : Arrival} {t : Thread}
    (ha : (c.arriving s clock step)[n]? = some a)
    (ht : (weave s c.books.store.nextSeq (c.moves s step) threads)[threads.length + n]? = some t) :
    a.seq = c.books.store.nextSeq + n ∧ a.seq < (c.take s step).books.store.nextSeq ∧
      a.Leads s (c.take s step).books.store t := by
  obtain ⟨hentry, hreading, hseq⟩ := arriving_eq_some ha
  have htaken : Entry.taken s ⟨step.operation, (c.ask s step).1⟩ ≠ [] := by
    intro hnone
    rw [hnone] at hentry
    contradiction
  obtain ⟨hweave, hnext⟩ := hc.weave_taken threads htaken
  have hlt := (List.getElem?_eq_some_iff.1 hentry).1
  have hleft : (c.ask s step).2.store.store = (c.take s step).books.store := rfl
  rw [hleft, hnext, Nat.add_sub_cancel] at hseq
  have hthread : t = { entry := a.entry, ids := [Store.jobId (c.books.store.nextSeq + n)] } := by
    rw [hweave, List.getElem?_append_right (Nat.le_add_right ..), Nat.add_sub_cancel_left,
      List.getElem?_mapIdx, hentry] at ht
    exact (Option.some.inj ht).symm
  obtain ⟨now, hkept⟩ := ((hc.made step).followed hc.distinct hf).1.kept t
    (List.mem_of_getElem? ht)
  obtain ⟨row, hrow, hid, hwork⟩ := (entered_ask htime htaken).row hentry
  rw [hleft, hnext, Nat.add_sub_cancel] at hid
  have hnow : t.now? = some row.id := by
    rw [hthread, hid]
    rfl
  have hsame := (hkept.row row hrow hnow).1
  rw [hwork, ← hreading, hthread] at hsame
  refine ⟨hseq, ?_, ?_, ?_, ?_⟩
  · rw [hseq, hnext]
    omega
  · rw [hthread]
  · rw [hsame]
    rw [hthread] at hkept ⊢
    exact hkept
  · intro _
    rw [hthread, hseq]

/-- What was said of a job that came in earlier goes on to hold. -/
theorem Sound.arrived (hc : c.Sound) (hf : Followed s threads c.books.store) {i : Nat}
    {a : Arrival} {t t' : Thread} (h : a.Leads s c.books.store t) (ht : threads[i]? = some t)
    (ht' : (weave s c.books.store.nextSeq (c.moves s step) threads)[i]? = some t') :
    a.Leads s (c.take s step).books.store t' := by
  obtain ⟨-, hlater⟩ := (hc.made (s := s) step).followed hc.distinct hf
  obtain ⟨t'', ht'', hprecedes, hkept⟩ := hlater i t _ ht h.kept
  obtain rfl := Option.some.inj (ht'.symm.trans ht'')
  refine ⟨hprecedes.entry.trans h.entry, hkept, ?_⟩
  intro hnone
  obtain ⟨hunfailed, hids⟩ := weave_unfailed ht ht' hnone
  exact hids.trans (h.first hunfailed)

theorem Sound.recorded (hc : c.Sound) (htime : OnTime clock c.state)
    (hf : Followed s threads c.books.store) (h : Recorded s arrivals threads c.books.store)
    (step : Step) :
    Recorded s (arrivals ++ c.arriving s clock step)
      (weave s c.books.store.nextSeq (c.moves s step) threads) (c.take s step).books.store := by
  have hentries : (arrivals ++ c.arriving s clock step).map (·.entry) =
      (weave s c.books.store.nextSeq (c.moves s step) threads).map (·.entry) := by
    rw [entries_weave, List.map_append, map_entry_arriving, h.entries]
    congr 1
    rw [Course.moves, Entry.taken]
    cases step.operation.read s with
    | error error => rfl
    | ok request => exact (request.taken_moves _ _).symm
  have hgrows : c.books.store.nextSeq ≤ (c.take s step).books.store.nextSeq := by
    rw [(hc.made (s := s) step).nextSeq]
    exact Nat.le_add_right ..
  exact h.append hentries hgrows (hc.arrived hf) (hc.arrives htime hf)

theorem run_recorded (s : Settings) (clock : Nat → Int64) (steps : List Step) :
    Recorded s (Course.arrivals s clock steps) (Course.threads s clock steps)
      (run s clock steps).books.store := by
  induction steps using List.reverseRecOn with
  | nil => exact ⟨rfl, nofun, nofun, nofun⟩
  | append_singleton steps last ih =>
    have hnext : record s clock (run s clock steps) [last] =
        (run s clock steps).arriving s clock last := List.append_nil _
    rw [arrivals_append, hnext, threads_snoc, run_snoc]
    exact (run_sound s clock steps).recorded (run_onTime s clock steps) (run_followed s clock steps)
      ih last

end Course
end CrawlCluster.Coordinator
