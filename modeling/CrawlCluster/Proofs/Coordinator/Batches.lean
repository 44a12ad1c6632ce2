import CrawlCluster.Proofs.Coordinator.Attempts
import CrawlCluster.Proofs.Coordinator.Deciding
import CrawlCluster.Proofs.Coordinator.Transition
import CrawlCluster.Proofs.Store.Queue

set_option autoImplicit false

namespace CrawlCluster.Coordinator

open Attempt (carriedOut carriedOut_append carriedOut_failed carriedOut_single)
open Program (run_bind run_map)

def newRow (s : Settings) (seq : Nat) : Int64 × NewJob → Queued := fun (t, job) =>
  { seq
    job :=
      { id := Store.jobId seq
        leaseTime := 0
        timeout := job.timeout.getD s.defaultTimeout
        priority := Clock.nearest (t.toInt - job.priority.toInt)
        url := job.url
        retries := 0 } }

/-- The jobs are taken in, in their order, each at its reading of the clock, and no other. -/
structure Stocked (s : Settings) (jobs : List NewJob) (readings : List Int64)
    (store left : Store) : Prop where
  times : readings.length = jobs.length
  queue : left.queue.Perm
    (Store.numbered (newRow s) store.nextSeq (readings.zip jobs) ++ store.queue)
  nextSeq : left.nextSeq = store.nextSeq + jobs.length
  current : left.current = store.current
  failed : left.failed = store.failed
  lastLease : left.lastLease = store.lastLease

variable {s : Settings} {now : Int64} {jobs : List NewJob}

theorem Stocked.none (s : Settings) (store : Store) : Stocked s [] [] store store :=
  ⟨rfl, .refl _, rfl, rfl, rfl, rfl⟩

theorem Stocked.cons {t : Int64} {job : NewJob} {readings : List Int64} {store left : Store}
    (h : Stocked s jobs readings (store.enqueue t (newEntry s job)) left) :
    Stocked s (job :: jobs) (t :: readings) store left where
  times := congrArg Nat.succ h.times
  queue := Store.perm_numbered_cons (Store.insertQueued_perm _ store.queue) h.queue
  nextSeq := by
    rw [h.nextSeq, List.length_cons]
    exact Nat.add_right_comm ..
  current := h.current
  failed := h.failed
  lastLease := h.lastLease

/-- The jobs are taken in when the calls for them are carried out, and nothing else happens. -/
structure Enters (s : Settings) (jobs : List NewJob) (st left : State ScriptedStore) : Prop where
  later : Later st left
  stocked : Stocked s jobs (carriedOut .enqueue (made st left)) st.store.store left.store.store
  stored : left.store.store.crawlId = st.store.store.crawlId
  outstanding : left.outstanding = st.outstanding
  crawlId : left.crawlId = st.crawlId

variable {st left : State ScriptedStore}

theorem Enters.none (hlater : Later st left) (hbooks : left.plain.books = st.plain.books)
    (hmade : carriedOut .enqueue (made st left) = []) : Enters s [] st left where
  later := hlater
  stocked := by
    have hstore : left.store.store = st.store.store := congrArg Books.store hbooks
    rw [hmade, hstore]
    exact .none s _
  stored := congrArg (·.store.crawlId) hbooks
  outstanding := congrArg Books.outstanding hbooks
  crawlId := congrArg Books.crawlId hbooks

theorem Enters.cons {t : Int64} {job : NewJob} {next : State ScriptedStore} (hlater : Later st next)
    (hbooks : next.plain.books =
      { st.plain.books with store := st.store.store.enqueue t (newEntry s job) })
    (hmade : carriedOut .enqueue (made st next) = [t]) (h : Enters s jobs next left) :
    Enters s (job :: jobs) st left where
  later := hlater.trans h.later
  stocked := by
    have hstore : next.store.store = _ := congrArg Books.store hbooks
    have hrest := h.stocked
    rw [hstore] at hrest
    rw [hlater.made_trans h.later, carriedOut_append, hmade]
    exact hrest.cons
  stored := h.stored.trans (congrArg (·.store.crawlId) hbooks)
  outstanding := h.outstanding.trans (congrArg Books.outstanding hbooks)
  crawlId := h.crawlId.trans (congrArg Books.crawlId hbooks)

/-- What only changes the crawl id may come first. -/
theorem Enters.stocked_since {mid : State ScriptedStore} {crawlId : Int32}
    (h : Enters s jobs mid left) (hlater : Later st mid)
    (hstore : mid.store.store = { st.store.store with crawlId })
    (hmade : carriedOut .enqueue (made st mid) = []) :
    Stocked s jobs (carriedOut .enqueue (made st left)) st.store.store left.store.store := by
  have hstocked := h.stocked
  rw [hstore] at hstocked
  rw [hlater.made_trans h.later, carriedOut_append, hmade, List.nil_append]
  exact ⟨hstocked.times, hstocked.queue, hstocked.nextSeq, hstocked.current, hstocked.failed,
    hstocked.lastLease⟩

section

variable [ScanOrder]

/-- All jobs are taken in, or those before the first for which a call is given up. -/
theorem enters_enqueueNew (s : Settings) (now : Int64) (index : Nat) (jobs : List NewJob)
    (st : State ScriptedStore) :
    let run := (enqueueNew s index jobs).run (s.scriptedSite now) st
    (run.1 = .ok () ∧ Enters s jobs st run.2) ∨
      ∃ n < jobs.length, run.1 = .error (.upload (index + n)) ∧
        Enters s (jobs.take n) st run.2 := by
  induction jobs generalizing index st with
  | nil => exact .inl ⟨rfl, .none (.refl st) rfl (congrArg (carriedOut .enqueue) (made_self st))⟩
  | cons job jobs ih =>
    refine run_asked (motive := fun run : Except JobError Unit × State ScriptedStore =>
      (run.1 = .ok () ∧ Enters s (job :: jobs) st run.2) ∨
        ∃ n < (job :: jobs).length, run.1 = .error (.upload (index + n)) ∧
          Enters s ((job :: jobs).take n) st run.2) ?_
    intro reply next hasked
    cases hasked with
    | carried t hlater hbooks hfailures hmade =>
      have hcarried : carriedOut .enqueue (made st next) = [t] := by
        rw [hmade, carriedOut_append, carriedOut_failed _ hfailures]
        exact carriedOut_single .enqueue t
      rcases ih (index + 1) next with ⟨hok, henters⟩ | ⟨n, hn, herror, henters⟩
      · exact .inl ⟨hok, henters.cons hlater hbooks hcarried⟩
      · refine .inr ⟨n + 1, Nat.succ_lt_succ hn, ?_, henters.cons hlater hbooks hcarried⟩
        have hindex : index + (n + 1) = index + 1 + n := by omega
        rw [hindex]
        exact herror
    | givenUp error hlater hbooks hfailures =>
      exact .inr ⟨0, Nat.succ_pos _, rfl, .none hlater hbooks (carriedOut_failed _ hfailures)⟩

section Harvests

inductive Adopts (crawlId : Int32) (st : State ScriptedStore) :
    Except JobError Unit → State ScriptedStore → Prop where
  | adopted {left : State ScriptedStore} (hlater : Later st left)
      (hmade : carriedOut .enqueue (made st left) = [])
      (hbooks : left.plain.books =
        { st.plain.books with
          store := { st.store.store with
            crawlId := if crawlId = st.crawlId then st.store.store.crawlId else crawlId }
          crawlId }) : Adopts crawlId st (.ok ()) left
  | failed (error : StoreError) {left : State ScriptedStore}
      (hbooks : left.plain.books = st.plain.books) : Adopts crawlId st (.error (.store error)) left

theorem adopts_adoptCrawlId (s : Settings) (now : Int64) (crawlId : Int32)
    (st : State ScriptedStore) :
    let run := (adoptCrawlId crawlId).run (s.scriptedSite now) st
    Adopts crawlId st run.1 run.2 := by
  by_cases hknown : crawlId = st.crawlId
  · have hrun : (adoptCrawlId crawlId).run (s.scriptedSite now) st = (.ok (), st) := by
      show (if crawlId ≠ st.crawlId then _ else _ : Program Unit).run _ st = _
      rw [if_neg (by simpa using hknown)]
      rfl
    rw [hrun]
    refine .adopted (.refl st) (congrArg (carriedOut .enqueue) (made_self st)) ?_
    rw [if_pos hknown, hknown]
    rfl
  · have hrun : (adoptCrawlId crawlId).run (s.scriptedSite now) st =
        (Program.query (.setCrawlId crawlId) >>= fun _ =>
          Program.perform (.setCrawlId crawlId)).run (s.scriptedSite now) st := by
      show (if crawlId ≠ st.crawlId then _ else _ : Program Unit).run _ st = _
      rw [if_pos hknown]
    rw [hrun]
    refine run_queried (motive := fun run : Except JobError Unit × State ScriptedStore =>
      Adopts crawlId st run.1 run.2) ?_
    intro reply next hasked
    cases hasked with
    | carried t hlater hbooks hfailures hmade =>
      refine .adopted (hlater.trans (.action s now (.setCrawlId crawlId) next)) ?_ ?_
      · refine (congrArg (carriedOut .enqueue) hmade).trans ?_
        rw [carriedOut_append, carriedOut_failed _ hfailures]
        rfl
      · rw [if_neg hknown]
        exact congrArg (fun b : Books => { b with crawlId }) hbooks
    | givenUp error hlater hbooks => exact .failed error hbooks

omit [ScanOrder] in
theorem run_deliver {σ : Type} (s : Settings) (site : Site σ) (harvest : Harvest) (st : State σ) :
    (deliver s harvest).run site st =
      match (adoptCrawlId harvest.directive.crawlId).run site st with
      | (.ok _, mid) =>
        let run := (enqueueNew s 0 harvest.jobs).run site
          { mid with events := mid.events ++ languageEvents harvest }
        (run.1.map fun _ => uploaded, run.2)
      | (.error error, mid) => (.error error, mid) := by
  refine (run_bind site _ _ st).trans ?_
  generalize (adoptCrawlId harvest.directive.crawlId).run site st = adopted
  obtain ⟨result, mid⟩ := adopted
  cases result with
  | error error => rfl
  | ok value =>
    cases hlanguages : harvest.languages.isEmpty with
    | true =>
      have hevents : languageEvents harvest = [] := if_pos hlanguages
      simp only [hevents, List.append_nil]
      exact run_map site (enqueueNew s 0 harvest.jobs) (fun _ => uploaded) mid
    | false =>
      have hevents : languageEvents harvest = [.languages harvest.languages] :=
        if_neg (by simp [hlanguages])
      simp only [hevents]
      exact run_map site (enqueueNew s 0 harvest.jobs) (fun _ => uploaded) _

/-- How a batch read from a text may end: what is answered, and the state left behind. After a
refusal nothing has changed and no store call was made. -/
inductive BatchEnd (s : Settings) (batch : Except PayloadError (List NewJob))
    (st : State ScriptedStore) : Except JobError String → State ScriptedStore → Prop where
  | refused (error : PayloadError) : BatchEnd s batch st (.error (.payload error)) st
  | deprecated : BatchEnd s batch st (.error .crawlDeprecated) st
  | unavailable (error : StoreError) {left : State ScriptedStore}
      (hstore : left.store.store = st.store.store) (hevents : left.events = st.events)
      (hcrawlId : left.crawlId = st.crawlId) : BatchEnd s batch st (.error (.store error)) left
  | cut {jobs : List NewJob} {n : Nat} {left : State ScriptedStore} (hbatch : batch = .ok jobs)
      (hn : n < jobs.length)
      (hstocked : Stocked s (jobs.take n) (carriedOut .enqueue (made st left)) st.store.store
        left.store.store) : BatchEnd s batch st (.error (.upload n)) left
  | whole {jobs : List NewJob} {left : State ScriptedStore} (hbatch : batch = .ok jobs)
      (hstocked : Stocked s jobs (carriedOut .enqueue (made st left)) st.store.store
        left.store.store) : BatchEnd s batch st (.ok uploaded) left

theorem ends_acceptJobs (s : Settings) (now : Int64) (jobs : List NewJob)
    (st : State ScriptedStore) :
    let run := (acceptJobs s jobs).run (s.scriptedSite now) st
    BatchEnd s (.ok jobs) st run.1 run.2 := by
  intro run
  by_cases hempty : jobs.isEmpty
  · have hrun : run = (.error (.payload .argumentCount), st) := by
      simp only [run, acceptJobs, if_pos hempty]
      rfl
    rw [hrun]
    exact .refused _
  · have hrun : run =
        (enqueueNew s 0 jobs >>= fun _ => pure uploaded).run (s.scriptedSite now) st := by
      simp only [run, acceptJobs, if_neg hempty]
    rw [hrun, run_map]
    rcases enters_enqueueNew s now 0 jobs st with ⟨hok, henters⟩ | ⟨n, hn, herror, henters⟩
    · rw [hok]
      exact .whole rfl henters.stocked
    · rw [herror, Nat.zero_add]
      exact .cut rfl hn henters.stocked

theorem ends_deliver (s : Settings) (now : Int64) (harvest : Harvest) (st : State ScriptedStore) :
    let run := (deliver s harvest).run (s.scriptedSite now) { st with outstanding := none }
    BatchEnd s (.ok harvest.jobs) st run.1 run.2 ∧
      (st.crawlId = st.store.store.crawlId → run.2.crawlId = run.2.store.store.crawlId) := by
  intro run
  let spent := { st with outstanding := none }
  have hrun : run = _ := run_deliver s (s.scriptedSite now) harvest spent
  have hadopts := adopts_adoptCrawlId s now harvest.directive.crawlId spent
  rw [hrun]
  generalize (adoptCrawlId harvest.directive.crawlId).run (s.scriptedSite now) spent = adopted
    at hadopts
  obtain ⟨result, mid⟩ := adopted
  cases hadopts with
  | failed error hbooks =>
    have hstore : mid.store.store = st.store.store := congrArg Books.store hbooks
    have hknown : mid.crawlId = st.crawlId := congrArg Books.crawlId hbooks
    refine ⟨.unavailable error hstore (congrArg Books.events hbooks) hknown, fun hagree => ?_⟩
    rw [hknown, hstore, hagree]
  | adopted hlater hmade hbooks =>
    let noted := { mid with events := mid.events ++ languageEvents harvest }
    have hnoted : Later st noted := ⟨hlater.calls, hlater.turns⟩
    have hstore : noted.store.store = _ := congrArg Books.store hbooks
    have hknown : noted.crawlId = harvest.directive.crawlId := congrArg Books.crawlId hbooks
    have hagree {jobs : List NewJob} {left : State ScriptedStore}
        (henters : Enters s jobs noted left) (hagreed : st.crawlId = st.store.store.crawlId) :
        left.crawlId = left.store.store.crawlId := by
      rw [henters.crawlId, henters.stored, hstore, hknown]
      split
      · next hsame => exact hsame.trans hagreed
      · rfl
    have hstocked {jobs : List NewJob} {left : State ScriptedStore}
        (henters : Enters s jobs noted left) :
        Stocked s jobs (carriedOut .enqueue (made st left)) st.store.store left.store.store :=
      henters.stocked_since hnoted hstore hmade
    have hentered := enters_enqueueNew s now 0 harvest.jobs noted
    dsimp only [noted] at hentered ⊢
    generalize (enqueueNew s 0 harvest.jobs).run (s.scriptedSite now) _ = entered at hentered ⊢
    obtain ⟨result, left⟩ := entered
    rcases hentered with ⟨rfl, henters⟩ | ⟨n, hn, rfl, henters⟩
    · exact ⟨.whole rfl (hstocked henters), hagree henters⟩
    · rw [Nat.zero_add]
      exact ⟨.cut rfl hn (hstocked henters), hagree henters⟩

end Harvests

/-- A batch is taken in whole or up to the job named in the error, whatever store calls fail on the
way. A text that cannot be read, or a harvest out of date, changes nothing and makes no store call.
A harvest whose token is the one awaited uses it up, whatever comes of the rest; and it never parts
the crawl id known from the one stored. -/
theorem batch_taken_up_to_failure (s : Settings) (now : Int64) (st : State ScriptedStore)
    (body : String) :
    (let run := (uploadJobs s body).run (s.scriptedSite now) st
    BatchEnd s (NewJob.parseBatch s.delimiters (s.delimiters.entries body)) st run.1 run.2) ∧
    (let run := (uploadHarvest s body).run (s.scriptedSite now) st
    BatchEnd s ((Harvest.parse s.delimiters body).map (·.jobs)) st run.1 run.2 ∧
      (∀ harvest, Harvest.parse s.delimiters body = .ok harvest →
        st.outstanding.map (·.token) = some harvest.directive.token →
        run.2.outstanding = none) ∧
      (st.crawlId = st.store.store.crawlId → run.2.crawlId = run.2.store.store.crawlId)) := by
  refine ⟨?_, ?_⟩
  · intro run
    have hrun : run = _ := run_bind (s.scriptedSite now)
      (Program.ofExcept (NewJob.parseBatch s.delimiters (s.delimiters.entries body)))
      (acceptJobs s) st
    rw [hrun]
    cases NewJob.parseBatch s.delimiters (s.delimiters.entries body) with
    | error error => exact .refused error
    | ok jobs => exact ends_acceptJobs s now jobs st
  · intro run
    have hrun : run = _ := run_bind (s.scriptedSite now)
      (Program.ofExcept (Harvest.parse s.delimiters body)) (acceptHarvest s) st
    rw [hrun]
    cases Harvest.parse s.delimiters body with
    | error error => exact ⟨.refused error, nofun, id⟩
    | ok harvest =>
      have hharvest : ∀ read, (Except.ok harvest : Except PayloadError Harvest) = .ok read →
          harvest = read := fun read => Except.ok.inj
      have haccept := run_acceptHarvest s (s.scriptedSite now) st harvest
      simp only [Program.ofExcept, Program.run]
      rcases haccept with ⟨htoken, hdelivered⟩ | ⟨htoken, hdeprecated⟩
      · have hends := ends_deliver s now harvest st
        have hspent := (spares_deliver s harvest).run (s.scriptedSite now)
          { st with outstanding := none }
        rw [← hdelivered] at hends hspent
        exact ⟨hends.1, fun _ _ _ => hspent, hends.2⟩
      · rw [hdeprecated]
        refine ⟨.deprecated, fun read hread hsame => ?_, id⟩
        rw [← hharvest read hread] at hsame
        exact absurd hsame htoken

end

def downAmidHarvest : State ScriptedStore :=
  { store :=
      { store := { crawlId := 4 }
        turns := fun n =>
          { now := 2000, fault := if n < 2 then none else some (.transient "connection lost") } }
    outstanding := some ⟨4, 1000⟩
    crawlId := 4 }

/-- The crawl id brought along and the first job are stored, the second job is not. -/
theorem batch_taken_up_to_failure_amid_harvest :
    let s : Settings := {}
    let run := (uploadHarvest s "5?1000\n\nhttps://x?1?10\nhttps://y?2\n").run
      (s.scriptedSite 2000) downAmidHarvest
    run.1 = .error (.upload 1) ∧
      Stocked s [⟨"https://x", 1, some 10⟩] [2000] downAmidHarvest.store.store
        run.2.store.store ∧
      run.2.outstanding = none ∧ run.2.crawlId = 5 ∧ run.2.store.store.crawlId = 5 := by
  intro s run
  have hparse : Harvest.parse s.delimiters "5?1000\n\nhttps://x?1?10\nhttps://y?2\n" =
      .ok ⟨⟨5, 1000⟩, [], [⟨"https://x", 1, some 10⟩, ⟨"https://y", 2, none⟩]⟩ := by
    decide +kernel
  have hrun : run.1 = .error (.upload 1) := by decide +kernel
  have hknown : run.2.crawlId = 5 := by decide +kernel
  have hcarried : carriedOut .enqueue (made downAmidHarvest run.2) = [2000] := by decide +kernel
  have hends := (batch_taken_up_to_failure s 2000 downAmidHarvest
    "5?1000\n\nhttps://x?1?10\nhttps://y?2\n").2
  rw [hparse] at hends
  dsimp only [run] at hrun hknown hcarried hends ⊢
  generalize (uploadHarvest s _).run (s.scriptedSite 2000) downAmidHarvest = run
    at hrun hknown hcarried hends ⊢
  obtain ⟨hend, hspent, hagree⟩ := hends
  refine ⟨hrun, ?_, hspent _ rfl rfl, hknown, (hagree rfl).symm.trans hknown⟩
  rw [hrun] at hend
  cases hend with
  | cut hbatch _ hstocked =>
    obtain rfl := Except.ok.inj hbatch
    rw [hcarried] at hstocked
    exact hstocked

end CrawlCluster.Coordinator
