import CrawlCluster.Proofs.Coordinator.History
import CrawlCluster.Proofs.Store.Masked

set_option autoImplicit false

namespace CrawlCluster.Coordinator

/-- What a coordinator is put to. -/
inductive Duty where
  | connect (db : Peer)
  | loadCrawlId
  | serve (operation : Operation)
  deriving DecidableEq, Repr

namespace Duty

abbrev Reply : Duty → Type
  | .connect _ => Unit
  | .loadCrawlId => Int32
  | .serve _ => Answer

def program (s : Settings) : (duty : Duty) → Program duty.Reply
  | .connect db => Coordinator.connect db
  | .loadCrawlId => Coordinator.loadCrawlId
  | .serve operation => operation.program s

end Duty

structure Done where
  duty : Duty
  result : Except JobError duty.Reply

section

variable [ScanOrder]

def attend (s : Settings) : List (Duty × Int64) → State ScriptedStore →
    List Done × State ScriptedStore
  | [], st => ([], st)
  | (duty, now) :: duties, st =>
    let (result, st) := (duty.program s).run (s.scriptedSite now) st
    let (done, st) := attend s duties st
    (⟨duty, result⟩ :: done, st)

/-- The coordinator with these books, over a store that takes the turns as they come. -/
def Books.under (turns : Nat → Turn) (b : Books) : State ScriptedStore :=
  { store := { store := b.store, turns }, outstanding := b.outstanding, crawlId := b.crawlId,
    events := b.events }

def calm (clock : Nat → Int64) : Nat → Turn := fun n => { now := clock n }

section Runs

variable {σ α : Type} (site : Site σ)

omit [ScanOrder] in
theorem Action.calls_grow (action : Action) (st : State σ) :
    st.calls.IsPrefix (action.run site st).2.calls := by
  cases action with
  | ask call => exact List.prefix_append ..
  | _ => exact List.prefix_rfl

omit [ScanOrder] in
theorem Program.calls_grow (p : Program α) (st : State σ) :
    st.calls.IsPrefix (p.run site st).2.calls := by
  induction p generalizing st with
  | done result => exact List.prefix_rfl
  | act action next ih => exact (action.calls_grow site st).trans (ih _ _)

variable {s : Settings} {now : Int64}

theorem attend_calls_grow (s : Settings) (duties : List (Duty × Int64)) (st : State ScriptedStore) :
    st.calls.IsPrefix (attend s duties st).2.calls := by
  induction duties generalizing st with
  | nil => exact List.prefix_rfl
  | cons first duties ih => exact ((first.1.program s).calls_grow _ st).trans (ih _)

theorem attend_append (duties more : List (Duty × Int64)) (st : State ScriptedStore) :
    (attend s (duties ++ more) st).2 = (attend s more (attend s duties st).2).2 := by
  induction duties generalizing st with
  | nil => rfl
  | cons first duties ih => exact ih _

theorem ask_outlasts {call : StoreCall} {hits : Nat} {t : Int64} {st : State ScriptedStore}
    (h : ScriptedStore.Outlasts call hits t st.store
      (s.retry.run (ScriptedStore.perform now call) st.store)) :
    ∃ slept, (hits = 0 → slept = st.slept) ∧ st.ask (s.scriptedSite now) call =
      ((st.store.store.perform t call).1,
        { st with
          store :=
            { store := (st.store.store.perform t call).2
              turns := fun n => st.store.turns (n + (hits + 1)) }
          calls := st.calls ++ List.replicate (hits + 1) call.kind
          slept }) := by
  refine ⟨st.slept ++ (s.retry.run (ScriptedStore.perform now call) st.store).delays, ?_, ?_⟩
  · intro hzero
    rw [List.length_eq_zero_iff.1 (h.delays.trans hzero), List.append_nil]
  · simp only [State.ask, Settings.scriptedSite, ScriptedStore.backend, RetryPolicy.Run.attempts,
      h.result, h.state, h.delays]

end Runs

/-- A coordinator beside one that no failure reaches, which makes `total` store calls in all. Each
of those still to come can be repeated until it is carried out. -/
structure Shadows (retries total : Nat) (st quiet : State ScriptedStore) : Prop where
  books : st.plain.books = quiet.plain.books
  calls : quiet.calls.Sublist st.calls
  slept : quiet.slept = []
  script : ∃ clock, quiet.store.turns = calm clock ∧
    Masks retries (total - quiet.calls.length) st.store.turns clock

namespace Shadows

variable {s : Settings} {now : Int64} {total : Nat} {st quiet : State ScriptedStore}

theorem ask {call : StoreCall} (h : Shadows s.retry.maxRetries total st quiet)
    (htotal : (quiet.ask (s.scriptedSite now) call).2.calls.length ≤ total) :
    (st.ask (s.scriptedSite now) call).1 = (quiet.ask (s.scriptedSite now) call).1 ∧
      Shadows s.retry.maxRetries total (st.ask (s.scriptedSite now) call).2
        (quiet.ask (s.scriptedSite now) call).2 := by
  obtain ⟨clock, hcalm, hmasks⟩ := h.script
  obtain ⟨slept, hslept, hquiet⟩ := ask_outlasts (ScriptedStore.runFrom_carried s.retry now call
    s.retry.maxRetries 0 (congrFun hcalm 0))
  rw [hquiet] at htotal ⊢
  rw [List.replicate_one, List.length_append, List.length_singleton] at htotal
  obtain ⟨left, hleft⟩ : ∃ left, total - quiet.calls.length = left + 1 :=
    ⟨total - quiet.calls.length - 1, by omega⟩
  rw [hleft] at hmasks
  cases hmasks with
  | call hhits hfails hcarried rest =>
    obtain ⟨slept', -, hst⟩ := ask_outlasts (ScriptedStore.runFrom_outlasts s.retry now call 0
      hhits hfails hcarried)
    have hstore : st.store.store = quiet.store.store := congrArg Books.store h.books
    rw [hst, hstore]
    refine ⟨rfl, ?_, ?_, (hslept rfl).trans h.slept, fun n => clock (n + 1), ?_, ?_⟩
    · exact congrArg (fun b : Books =>
        { b with store := (quiet.store.store.perform (clock 0) call).2 }) h.books
    · exact h.calls.append (List.replicate_sublist_replicate _ |>.2 (by omega))
    · exact funext fun n => congrFun hcalm (n + 1)
    · have hrest : total - (quiet.calls ++ List.replicate 1 call.kind).length = left := by
        rw [List.replicate_one, List.length_append, List.length_singleton]
        omega
      rw [hrest]
      exact rest

theorem action {act : Action} (h : Shadows s.retry.maxRetries total st quiet)
    (htotal : (act.run (s.scriptedSite now) quiet).2.calls.length ≤ total) :
    (act.run (s.scriptedSite now) st).1 = (act.run (s.scriptedSite now) quiet).1 ∧
      Shadows s.retry.maxRetries total (act.run (s.scriptedSite now) st).2
        (act.run (s.scriptedSite now) quiet).2 := by
  obtain ⟨hstore, houtstanding, hcrawlId, hevents⟩ := Books.mk.injEq .. ▸ h.books
  cases act with
  | ask call => exact h.ask htotal
  | readClock => exact ⟨rfl, h⟩
  | outstanding => exact ⟨houtstanding, h⟩
  | setOutstanding directive =>
    exact ⟨rfl, congrArg (fun b : Books => { b with outstanding := directive }) h.books, h.calls,
      h.slept, h.script⟩
  | crawlId => exact ⟨hcrawlId, h⟩
  | setCrawlId crawlId =>
    exact ⟨rfl, congrArg (fun b : Books => { b with crawlId }) h.books, h.calls, h.slept,
      h.script⟩
  | record event =>
    exact ⟨rfl, congrArg (fun b : Books => { b with events := b.events ++ [event] }) h.books,
      h.calls, h.slept, h.script⟩
  | acquire lock => exact ⟨rfl, h⟩
  | release lock => exact ⟨rfl, h⟩

/-- Since no program is told of a failure that was outlasted, none branches on one. -/
theorem program {α : Type} {p : Program α} (h : Shadows s.retry.maxRetries total st quiet)
    (htotal : (p.run (s.scriptedSite now) quiet).2.calls.length ≤ total) :
    (p.run (s.scriptedSite now) st).1 = (p.run (s.scriptedSite now) quiet).1 ∧
      Shadows s.retry.maxRetries total (p.run (s.scriptedSite now) st).2
        (p.run (s.scriptedSite now) quiet).2 := by
  induction p generalizing st quiet with
  | done result => exact ⟨rfl, h⟩
  | act act next ih =>
    have hcalls := ((next (act.run (s.scriptedSite now) quiet).1).calls_grow (s.scriptedSite now)
      (act.run (s.scriptedSite now) quiet).2).length_le
    obtain ⟨hreply, hnext⟩ := h.action (Nat.le_trans hcalls htotal)
    simp only [Program.run, hreply]
    exact ih _ hnext htotal

theorem attend {duties : List (Duty × Int64)} (h : Shadows s.retry.maxRetries total st quiet)
    (htotal : (attend s duties quiet).2.calls.length ≤ total) :
    (attend s duties st).1 = (attend s duties quiet).1 ∧
      Shadows s.retry.maxRetries total (attend s duties st).2 (attend s duties quiet).2 := by
  induction duties generalizing st quiet with
  | nil => exact ⟨rfl, h⟩
  | cons first duties ih =>
    have hcalls := (attend_calls_grow s duties
      ((first.1.program s).run (s.scriptedSite first.2) quiet).2).length_le
    obtain ⟨hresult, hfirst⟩ := h.program (Nat.le_trans hcalls htotal)
    obtain ⟨hdone, hrest⟩ := ih hfirst htotal
    refine ⟨?_, hrest⟩
    simp only [Coordinator.attend, hresult, hdone]

end Shadows

/-- A coordinator that goes through its duties while its store fails, none of the store calls more
often than it is repeated, has after each duty answered as it would have answered had the store
not failed, the calls being carried out at the same times and the leases coming up in the same
order, whatever that is; and its store, the directive whose harvest it awaits, the crawl id and the
events recorded are the same. It only made more store calls, and slept between them. -/
theorem outlasted_failures_invisible (s : Settings) (start : Books) (turns : Nat → Turn)
    (clock : Nat → Int64) (duties more : List (Duty × Int64))
    (hmasks : Masks s.retry.maxRetries
      (attend s (duties ++ more) (start.under (calm clock))).2.calls.length turns clock) :
    let run := attend s duties (start.under turns)
    let quiet := attend s duties (start.under (calm clock))
    run.1 = quiet.1 ∧ run.2.plain.books = quiet.2.plain.books ∧
      quiet.2.calls.Sublist run.2.calls ∧ quiet.2.slept = [] := by
  intro run quiet
  have hstart : Shadows s.retry.maxRetries
      (attend s (duties ++ more) (start.under (calm clock))).2.calls.length
      (start.under turns) (start.under (calm clock)) :=
    ⟨rfl, .refl _, rfl, clock, rfl, hmasks⟩
  have hmade : quiet.2.calls.length ≤
      (attend s (duties ++ more) (start.under (calm clock))).2.calls.length := by
    rw [attend_append]
    exact (attend_calls_grow s more _).length_le
  obtain ⟨hdone, hshadows⟩ := hstart.attend hmade
  exact ⟨hdone, hshadows.books, hshadows.calls, hshadows.slept⟩

end

def expiring : List (Duty × Int64) :=
  [(.connect ⟨"10.0.0.9", 6379⟩, 1000), (.loadCrawlId, 1000),
    (.serve (.uploadJobs "https://x?1?10\n"), 1000), (.serve .takeJob, 1000),
    (.serve (.sweep 12000), 12000)]

def strained : Nat → Turn := fun n =>
  { now := 1000, fault := if n % 4 = 3 then none else some (.transient "connection lost") }

theorem masks_strained (calls : Nat) : Masks 3 calls strained fun _ => 1000 := by
  induction calls with
  | zero => exact .none ..
  | succ calls ih =>
    have hbound : 3 ≤ 3 := Nat.le_refl 3
    refine .call hbound ?_ rfl ?_
    · intro n hn
      have hfault : n % 4 ≠ 3 := by omega
      exact ⟨.transient "connection lost", if_neg hfault, by simp⟩
    · have hsame : (fun n => strained (n + (3 + 1))) = strained := by
        funext n
        simp [strained]
      rw [hsame]
      exact ih

/-- The job is leased, found expired and put back, through three failures of each call. -/
theorem outlasted_failures_invisible_expiring :
    let s : Settings := { minQueued := 1 }
    Masks s.retry.maxRetries
        (attend s (expiring ++ []) (Books.under (calm fun _ => 1000) {})).2.calls.length
        strained (fun _ => 1000) ∧
      (let run := attend s expiring (Books.under strained {})
      let quiet := attend s expiring (Books.under (calm fun _ => 1000) {})
      run.1 = quiet.1 ∧ run.2.plain.books = quiet.2.plain.books ∧
        quiet.2.calls.Sublist run.2.calls ∧ quiet.2.slept = []) ∧
      (attend s expiring (Books.under strained {})).2.calls.length = 44 := by
  intro s
  have hmasks : ∀ calls, Masks s.retry.maxRetries calls strained fun _ => 1000 := masks_strained
  exact ⟨hmasks _,
    outlasted_failures_invisible s {} strained (fun _ => 1000) expiring [] (hmasks _),
    by decide +kernel⟩

end CrawlCluster.Coordinator
