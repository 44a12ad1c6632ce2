import CrawlCluster.Proofs.Coordinator.History
import CrawlCluster.Proofs.Coordinator.Moves
import CrawlCluster.Proofs.Coordinator.Working

/-!
What a request comes to on a store that works: each is answered in one of a few ways, and moves
jobs through the store one by one. Main statements: `Course.Sound.take`, for one operation, and
`Course.run_keeps`, by which what every operation keeps holds of whole lives.
-/

set_option autoImplicit false

namespace CrawlCluster.Coordinator

open Program (settle ensures_bind ensures_holding ensures_pure ensures_record ensures_readClock
  ensures_outstanding ensures_setOutstanding ensures_crawlId ensures_setCrawlId ensures_ofExcept
  ensures_map working_query working_ask working_fenced then_ok)

variable [ScanOrder]

/-- The leases a sweep comes upon that have run out. -/
def Books.overdue (now : Int64) (b : Books) : List Job :=
  (ScanOrder.scan b.store).filter (·.isExpired now)

def adopting (crawlId : Int32) (b : Books) : List Move :=
  if crawlId = b.crawlId then [] else [.adopt crawlId]

def languageEvents (brought : Harvest) : List Event :=
  if brought.languages.isEmpty then [] else [.languages brought.languages]

/-- A request, its answer, and the books before and after it. -/
inductive Transition (s : Settings) (now : Int64) :
    Request → Except JobError Answer → Books → Books → Prop where
  | vacant {b : Books} : Transition s now (.upload []) (.error (.payload .argumentCount)) b b
  | admitted {jobs : List NewJob} {b : Books} {store : Store} (hjobs : jobs ≠ [])
    (hmoves : Moves s (jobs.map .enter) b.store store) :
    Transition s now (.upload jobs) (.ok (.text uploaded)) b { b with store }
  | harvested {brought : Harvest} {b : Books} {store : Store}
    (htoken : b.outstanding.map (·.token) = some brought.directive.token)
    (hmoves : Moves s (adopting brought.directive.crawlId b ++ brought.jobs.map .enter)
      b.store store) :
    Transition s now (.harvest brought) (.ok (.text uploaded)) b
      { store, outstanding := none, crawlId := brought.directive.crawlId,
        events := b.events ++ languageEvents brought }
  | deprecated {brought : Harvest} {b : Books}
    (htoken : b.outstanding.map (·.token) ≠ some brought.directive.token) :
    Transition s now (.harvest brought) (.error .crawlDeprecated) b b
  | leased {job : Job} {leaseTime : Int64} {b : Books} {store : Store}
    (hdepth : s.minQueued ≤ b.store.queue.length ∨ (b.outstanding.filter (isFresh s now)).isSome)
    (hmove : Moved s (.lease job leaseTime) b.store store) :
    Transition s now .takeJob
      (.ok (.assignment (.spider job.id job.url leaseTime job.timeout))) b { b with store }
  | idle {directive : Directive} {b : Books} (hqueue : b.store.queue = [])
    (hfresh : b.outstanding.filter (isFresh s now) = some directive) :
    Transition s now .takeJob (.ok (.assignment (.idle directive))) b b
  | directed {b : Books} (hdepth : b.store.queue.length < s.minQueued ∨ b.store.queue = [])
    (hfresh : b.outstanding.filter (isFresh s now) = none) :
    Transition s now .takeJob
      (.ok (.assignment (.crawl ⟨b.crawlId, nextToken now b.outstanding⟩))) b
      { b with outstanding := some ⟨b.crawlId, nextToken now b.outstanding⟩ }
  | renewed {lease : Lease} {job : Job} {leaseTime : Int64} {b : Books} {store : Store}
    (hheld : b.store.held? lease = some job)
    (hmove : Moved s (.renew job leaseTime) b.store store) :
    Transition s now (.renew lease) (.ok (.leaseTime leaseTime)) b { b with store }
  | renewalRejected {lease : Lease} {b : Books} (hheld : b.store.held? lease = none) :
    Transition s now (.renew lease) (.error .notExpected) b b
  | finished {node : Peer} {client : String} {said : Report} {job : Job} {b : Books} {store : Store}
    (hheld : b.store.held? said.lease = some job) (hsuccess : said.outcome.isSuccess = true)
    (hmove : Moved s (.finish job) b.store store) :
    Transition s now (.report node client said) (.ok (.text finished)) b
      { b with store, events := b.events ++ [.finished node client said.outcome, .project job.url] }
  | failed {node : Peer} {client : String} {said : Report} {job : Job} {b : Books} {store : Store}
    (hheld : b.store.held? said.lease = some job) (hsuccess : said.outcome.isSuccess = false)
    (hmove : Moved s (.fail ⟨job, said.outcome, said.detail⟩) b.store store) :
    Transition s now (.report node client said) (.ok (.text Coordinator.failed)) b
      { b with store, events := b.events ++ [.finished node client said.outcome] }
  | reportRejected {node : Peer} {client : String} {said : Report} {b : Books}
    (hheld : b.store.held? said.lease = none) :
    Transition s now (.report node client said) (.error .notExpected) b b
  | swept {before : Int64} {b : Books} {store : Store}
    (hmoves : Moves s (((b.overdue before).map overdue).map .fail) b.store store) :
    Transition s now (.sweep before) (.ok (.count (b.overdue before).length)) b { b with store }

section Parts

variable {s : Settings} {now : Int64} {st : State Store}

theorem working_enqueueNew {goal : Except JobError Unit → State Store → Prop} (index : Nat)
    (jobs : List NewJob)
    (h : ∀ store left, Moves s (jobs.map .enter) st.books.store store →
      left.books = { st.books with store } → goal (.ok ()) left) :
    (enqueueNew s index jobs).Ensures .working now goal st := by
  induction jobs generalizing index st with
  | nil => exact h st.books.store st (.nil _) rfl
  | cons job jobs ih =>
    rw [enqueueNew, ensures_bind]
    apply working_ask
    intro t left hleft
    simp only [Store.perform, then_ok] at hleft ⊢
    rw [ensures_bind]
    apply ih
    intro store left' hmoves hleft'
    rw [hleft] at hmoves hleft'
    exact h store left' (.cons (.enter t job _) hmoves) hleft'

theorem working_grant {goal : Except JobError Assignment → State Store → Prop} (job : Job)
    (h : ∀ t left, left.books = { st.books with store := st.books.store.grant t job } →
      goal (.ok (.spider job.id job.url (st.books.store.grantTime t) job.timeout)) left) :
    (grant job).Ensures .working now goal st := by
  unfold grant
  rw [ensures_bind]
  apply working_ask
  intro t left hleft
  exact h t left hleft

theorem working_consume {goal : Except JobError Unit → State Store → Prop} (directive : Directive)
    (hok : st.books.outstanding.map (·.token) = some directive.token → ∀ left,
      left.books = { st.books with outstanding := none } → goal (.ok ()) left)
    (hno : st.books.outstanding.map (·.token) ≠ some directive.token →
      goal (.error .crawlDeprecated) st) :
    (consume directive).Ensures .working now goal st := by
  unfold consume
  rw [ensures_holding, ensures_bind, ensures_outstanding]
  simp only [then_ok]
  split
  · next htoken => exact ensures_setOutstanding (hok htoken)
  · next htoken => exact hno htoken

theorem working_adoptCrawlId {goal : Except JobError Unit → State Store → Prop} (crawlId : Int32)
    (h : ∀ store left, Moves s (adopting crawlId st.books) st.books.store store →
      left.books = { st.books with store, crawlId } → goal (.ok ()) left) :
    (adoptCrawlId crawlId).Ensures .working now goal st := by
  unfold adoptCrawlId
  rw [ensures_bind, ensures_crawlId]
  simp only [then_ok]
  split
  · next hne =>
    rw [ensures_bind]
    apply working_query
    intro t left hleft
    simp only [Store.perform, settle, then_ok] at hleft ⊢
    apply ensures_setCrawlId
    intro left' hleft'
    rw [hleft] at hleft'
    refine h _ left' ?_ hleft'
    rw [adopting, if_neg hne]
    exact (Moved.adopt crawlId st.books.store).moves
  · next heq =>
    obtain rfl : crawlId = st.books.crawlId := by simpa using heq
    refine h st.books.store st ?_ rfl
    rw [adopting, if_pos rfl]
    exact .nil _

theorem working_reclaim {goal : Except JobError Bool → State Store → Prop} {job : Job}
    (hjob : st.books.store.leased? job.id = some job)
    (h : ∀ store left, Moved s (.fail (overdue job)) st.books.store store →
      left.books = { st.books with store } → goal (.ok true) left) :
    (reclaim s job).Ensures .working now goal st := by
  unfold reclaim
  rw [ensures_holding, ensures_bind]
  apply working_query
  intro t left hleft
  simp only [Store.perform, settle, then_ok, hjob, Option.map_some, if_true] at hleft ⊢
  rw [ensures_bind]
  apply working_query
  intro t₁ left₁ hleft₁
  simp only [Store.perform, settle, then_ok, hleft] at hleft₁ ⊢
  rw [ensures_bind]
  apply working_query
  intro t₂ left₂ hleft₂
  simp only [Store.perform, settle, then_ok, hleft₁] at hleft₂ ⊢
  split
  · next hretries =>
    rw [ensures_bind]
    apply working_query
    intro t₃ left₃ hleft₃
    simp only [Store.perform, settle, then_ok, hleft₂] at hleft₃ ⊢
    exact h _ left₃ (.retry t₃ hjob (by simpa [retries_overdue] using hretries)) hleft₃
  · next hretries =>
    exact h _ left₂ (.drop hjob (by simpa [retries_overdue] using hretries)) hleft₂

theorem working_reclaimEach {goal : Except JobError Nat → State Store → Prop} (jobs : List Job)
    (count : Nat) (hnodup : (jobs.map (·.id)).Nodup)
    (hjobs : ∀ job ∈ jobs, st.books.store.leased? job.id = some job)
    (h : ∀ store left, Moves s ((jobs.map overdue).map .fail) st.books.store store →
      left.books = { st.books with store } → goal (.ok (count + jobs.length)) left) :
    (reclaimEach s jobs count).Ensures .working now goal st := by
  induction jobs generalizing count st with
  | nil => exact h st.books.store st (.nil _) rfl
  | cons job jobs ih =>
    obtain ⟨hid, hnodup⟩ := List.nodup_cons.1 hnodup
    rw [reclaimEach, ensures_bind]
    apply working_reclaim (hjobs job (by simp))
    intro store left hmoved hleft
    apply ih _ hnodup
    · intro other hother
      have hne : other.id ≠ (overdue job).job.id := fun he =>
        hid (List.mem_map.2 ⟨other, hother, he⟩)
      rw [hleft]
      rw [hmoved.leased?_of_fail, if_neg hne]
      exact hjobs other (by simp [hother])
    · intro store' left' hmoves hleft'
      rw [hleft] at hmoves hleft'
      have hcount : count + 1 + jobs.length = count + (job :: jobs).length := by
        rw [List.length_cons]
        omega
      rw [if_pos rfl, hcount]
      exact h store' left' (.cons hmoved hmoves) hleft'

end Parts

section Requests

variable {s : Settings} {now : Int64} {st : State Store}

theorem upload_transition (jobs : List NewJob) :
    (acceptJobs s jobs).Ensures .working now (fun result left =>
      Transition s now (.upload jobs) (result.map .text) st.books left.books) st := by
  unfold acceptJobs
  cases jobs with
  | nil => exact .vacant
  | cons job jobs =>
    rw [List.isEmpty_cons, if_neg (by simp), ensures_bind]
    apply working_enqueueNew
    intro store left hmoves hleft
    rw [then_ok, ensures_pure, hleft]
    exact .admitted (by simp) hmoves

theorem harvest_transition (brought : Harvest) :
    (acceptHarvest s brought).Ensures .working now (fun result left =>
      Transition s now (.harvest brought) (result.map .text) st.books left.books) st := by
  unfold acceptHarvest
  rw [ensures_bind]
  refine working_consume brought.directive ?_ fun htoken => .deprecated htoken
  intro htoken left₁ hleft₁
  rw [then_ok, ensures_bind]
  apply working_adoptCrawlId
  intro adopted left₂ hadopted hleft₂
  rw [hleft₁] at hadopted hleft₂
  have hrest : ∀ left₃, left₃.books =
      { left₂.books with events := st.books.events ++ languageEvents brought } →
      (enqueueNew s 0 brought.jobs >>= fun _ => pure uploaded).Ensures .working now
        (fun result left =>
          Transition s now (.harvest brought) (result.map .text) st.books left.books) left₃ := by
    intro left₃ hleft₃
    rw [ensures_bind]
    apply working_enqueueNew
    intro store left₄ hmoves hleft₄
    rw [then_ok, ensures_pure, hleft₄, hleft₃, hleft₂]
    rw [hleft₃, hleft₂] at hmoves
    exact .harvested htoken (hadopted.append hmoves)
  rw [then_ok]
  cases hlanguages : brought.languages.isEmpty with
  | true =>
    apply hrest
    rw [hleft₂]
    simp [languageEvents, hlanguages]
  | false =>
    simp only [Bool.not_false, if_true]
    rw [ensures_bind]
    apply ensures_record
    intro left₃ hleft₃
    rw [then_ok]
    apply hrest
    rw [hleft₃, hleft₂]
    simp [languageEvents, hlanguages]

theorem direct_transition
    (hdepth : st.books.store.queue.length < s.minQueued ∨ st.books.store.queue = [])
    (hqueue : (st.books.outstanding.filter (isFresh s now)).isSome → st.books.store.queue = []) :
    (direct now st.books.outstanding (st.books.outstanding.filter (isFresh s now))).Ensures
      .working now (fun result left =>
        Transition s now .takeJob (result.map .assignment) st.books left.books) st := by
  unfold direct
  cases hfresh : st.books.outstanding.filter (isFresh s now) with
  | some directive => exact .idle (hqueue (by simp [hfresh])) hfresh
  | none =>
    simp only [ensures_bind, ensures_crawlId, then_ok]
    apply ensures_setOutstanding
    intro left hleft
    rw [then_ok, ensures_pure, hleft]
    exact .directed hdepth hfresh

theorem takeJob_transition :
    (takeJob s).Ensures .working now (fun result left =>
      Transition s now .takeJob (result.map .assignment) st.books left.books) st := by
  unfold takeJob
  rw [ensures_holding, ensures_bind, ensures_readClock, then_ok, ensures_bind,
    ensures_outstanding, then_ok]
  dsimp only
  rw [ensures_bind]
  apply working_query
  intro t left hleft
  simp only [Store.perform, settle, then_ok] at hleft ⊢
  have hbooks : left.books = st.books := hleft
  rw [← hbooks]
  split
  · next hdeep =>
    rw [ensures_bind]
    apply working_ask
    intro t₁ left₁ hleft₁
    cases hqueue : left.books.store.queue with
    | nil =>
      simp only [Store.perform, Store.takeTop, hqueue, then_ok] at hleft₁ ⊢
      have hbooks₁ : left₁.books = left.books := hleft₁
      rw [← hbooks₁] at hqueue ⊢
      exact direct_transition (.inr hqueue) fun _ => hqueue
    | cons q queue =>
      simp only [Store.perform, Store.takeTop, hqueue, then_ok] at hleft₁ ⊢
      apply working_grant
      intro t₂ left₂ hleft₂
      rw [hleft₁] at hleft₂ ⊢
      rw [hleft₂]
      refine .leased ?_ (.lease t₂ hqueue)
      simp only [Bool.or_eq_true, Bool.and_eq_true, decide_eq_true_eq] at hdeep
      exact hdeep.imp id (·.1)
  · next hshallow =>
    simp only [Bool.or_eq_true, Bool.and_eq_true, decide_eq_true_eq, not_or, not_and] at hshallow
    refine direct_transition (.inl (by omega)) fun hfresh => ?_
    have hlength : ¬1 ≤ left.books.store.queue.length := hshallow.2 hfresh
    exact List.length_eq_zero_iff.1 (by omega)

theorem renew_transition (lease : Lease) :
    (renew lease).Ensures .working now (fun result left =>
      Transition s now (.renew lease) (result.map .leaseTime) st.books left.books) st := by
  unfold renew
  rw [ensures_holding, ensures_bind]
  apply working_fenced
  intro left hleft
  cases hheld : st.books.store.held? lease with
  | none =>
    rw [← hleft] at hheld ⊢
    exact .renewalRejected hheld
  | some job =>
    have hjob := Store.leased?_of_held? hheld
    apply working_query
    intro t left₁ hleft₁
    rw [hleft] at hleft₁ ⊢
    simp only [Store.perform, settle, Except.map] at hleft₁ ⊢
    rw [hleft₁]
    exact .renewed hheld (.renew t hjob)

theorem report_transition (node : Peer) (client : String) (said : Report) :
    (acceptReport s node client said).Ensures .working now (fun result left =>
      Transition s now (.report node client said) (result.map .text) st.books left.books) st := by
  unfold acceptReport
  rw [ensures_holding, ensures_bind]
  apply working_fenced
  intro left hleft
  cases hheld : st.books.store.held? said.lease with
  | none =>
    rw [← hleft] at hheld ⊢
    exact .reportRejected hheld
  | some job =>
    have hjob := Store.leased?_of_held? hheld
    simp only [Option.elim, then_ok]
    rw [ensures_bind]
    apply ensures_record
    intro left₁ hleft₁
    rw [hleft] at hleft₁
    rw [then_ok]
    split
    · next hsuccess =>
      rw [ensures_bind]
      apply working_query
      intro t left₂ hleft₂
      rw [hleft₁] at hleft₂ ⊢
      simp only [Store.perform, settle, then_ok] at hleft₂ ⊢
      rw [ensures_bind]
      apply ensures_record
      intro left₃ hleft₃
      rw [hleft₂] at hleft₃
      rw [then_ok, ensures_pure, hleft₃]
      simp only [List.append_assoc]
      exact .finished hheld hsuccess (.finish hjob)
    · next hfailure =>
      rw [ensures_bind]
      apply working_query
      intro t left₂ hleft₂
      rw [hleft₁] at hleft₂ ⊢
      simp only [Store.perform, settle, then_ok] at hleft₂ ⊢
      split
      · next hretries =>
        rw [ensures_bind]
        apply working_query
        intro t₁ left₃ hleft₃
        rw [hleft₂] at hleft₃ ⊢
        simp only [Store.perform, settle, then_ok] at hleft₃ ⊢
        rw [ensures_bind]
        apply working_query
        intro t₂ left₄ hleft₄
        rw [hleft₃] at hleft₄ ⊢
        simp only [Store.perform, settle, then_ok, ensures_pure] at hleft₄ ⊢
        rw [hleft₄]
        exact .failed hheld (by simpa using hfailure) (.retry t₁ hjob hretries)
      · next hretries =>
        rw [ensures_bind]
        apply working_query
        intro t₁ left₃ hleft₃
        rw [hleft₂] at hleft₃ ⊢
        simp only [Store.perform, settle, then_ok, ensures_pure] at hleft₃ ⊢
        rw [hleft₃]
        exact .failed hheld (by simpa using hfailure)
          (.drop hjob (Bool.eq_false_iff.2 hretries))

theorem sweep_transition (before : Int64) (hst : Store.Ordered st.books.store.current) :
    (sweep s before).Ensures .working now (fun result left =>
      Transition s now (.sweep before) (result.map .count) st.books left.books) st := by
  unfold sweep
  rw [ensures_bind]
  apply working_query
  intro t left hleft
  simp only [Store.perform, settle, then_ok] at hleft ⊢
  have hbooks : left.books = st.books := hleft
  rw [← hbooks] at hst ⊢
  apply working_reclaimEach
  · exact hst.nodup_scan.sublist (List.filter_sublist.map _)
  · intro job hjob
    exact (Store.leased?_eq_some_iff hst).2 ⟨Store.mem_scan.1 (List.mem_of_mem_filter hjob), rfl⟩
  · intro store left' hmoves hleft'
    rw [hleft', Nat.zero_add]
    exact .swept hmoves

theorem request_transition (request : Request) (hst : Store.Ordered st.books.store.current) :
    (request.program s).Ensures .working now (fun result left =>
      Transition s now request result st.books left.books) st := by
  cases request with
  | upload jobs => exact ensures_map (upload_transition jobs)
  | harvest brought => exact ensures_map (harvest_transition brought)
  | takeJob => exact ensures_map takeJob_transition
  | renew lease => exact ensures_map (renew_transition lease)
  | report node client said => exact ensures_map (report_transition node client said)
  | sweep before => exact ensures_map (sweep_transition before hst)

end Requests

def Operation.Comes (s : Settings) (step : Step) (result : Except JobError Answer)
    (b left : Books) : Prop :=
  match step.operation.read s with
  | .ok request => Transition s step.now request result b left
  | .error error => result = .error (.payload error) ∧ left = b

theorem Operation.comes_ok {s : Settings} {step : Step} {request : Request}
    {result : Except JobError Answer} {b left : Books}
    (hread : step.operation.read s = .ok request) :
    Operation.Comes s step result b left ↔ Transition s step.now request result b left := by
  rw [Operation.Comes, hread]

theorem Operation.comes_error {s : Settings} {step : Step} {error : PayloadError}
    {result : Except JobError Answer} {b left : Books}
    (hread : step.operation.read s = .error error) :
    Operation.Comes s step result b left ↔ result = .error (.payload error) ∧ left = b := by
  rw [Operation.Comes, hread]

theorem Operation.Comes.answered {s : Settings} {step : Step} {answer : Answer} {b left : Books}
    (h : Operation.Comes s step (.ok answer) b left) :
    ∃ request, step.operation.read s = .ok request ∧
      Transition s step.now request (.ok answer) b left := by
  cases hread : step.operation.read s with
  | error error =>
    obtain ⟨hresult, -⟩ := (Operation.comes_error hread).1 h
    contradiction
  | ok request => exact ⟨request, rfl, (Operation.comes_ok hread).1 h⟩

theorem operation_comes {s : Settings} {st : State Store} (step : Step)
    (hst : Store.Ordered st.books.store.current) :
    (step.operation.program s).Ensures .working step.now (fun result left =>
      Operation.Comes s step result st.books left.books) st := by
  rw [Operation.program_eq, ensures_bind, ensures_ofExcept]
  unfold Operation.Comes
  cases step.operation.read s with
  | error error => exact ⟨rfl, rfl⟩
  | ok request => exact request_transition request hst

theorem Transition.moves {s : Settings} {now : Int64} {request : Request}
    {result : Except JobError Answer} {b left : Books}
    (h : Transition s now request result b left) : ∃ moves, Moves s moves b.store left.store := by
  cases h with
  | vacant => exact ⟨[], .nil _⟩
  | admitted _ hmoves => exact ⟨_, hmoves⟩
  | harvested _ hmoves => exact ⟨_, hmoves⟩
  | deprecated => exact ⟨[], .nil _⟩
  | leased _ hmove => exact ⟨_, hmove.moves⟩
  | idle => exact ⟨[], .nil _⟩
  | directed => exact ⟨[], .nil _⟩
  | renewed _ hmove => exact ⟨_, hmove.moves⟩
  | renewalRejected => exact ⟨[], .nil _⟩
  | finished _ _ hmove => exact ⟨_, hmove.moves⟩
  | failed _ _ hmove => exact ⟨_, hmove.moves⟩
  | reportRejected => exact ⟨[], .nil _⟩
  | swept hmoves => exact ⟨_, hmoves⟩

theorem Operation.Comes.distinct {s : Settings} {step : Step} {result : Except JobError Answer}
    {b left : Books} (h : Operation.Comes s step result b left) (hd : b.store.Distinct) :
    left.store.Distinct ∧ b.store.Precedes left.store := by
  unfold Operation.Comes at h
  split at h
  · obtain ⟨moves, hmoves⟩ := h.moves
    exact hmoves.distinct hd
  · rw [h.2]
    exact ⟨hd, .refl _⟩

namespace Course

structure Sound (c : Course) : Prop where
  faultless : c.state.store.Faultless
  distinct : c.books.store.Distinct

variable {s : Settings} {c : Course}

theorem Sound.comes (h : c.Sound) (step : Step) :
    Operation.Comes s step (c.ask s step).1 c.books (c.take s step).books :=
  ((operation_comes step h.distinct.ordered).run_working h.faultless).1

theorem Sound.take (h : c.Sound) (step : Step) : (c.take s step).Sound where
  faultless := ((operation_comes step h.distinct.ordered).run_working h.faultless).2
  distinct := ((h.comes step).distinct h.distinct).1

theorem run_sound (s : Settings) (clock : Nat → Int64) (steps : List Step) :
    (run s clock steps).Sound :=
  run_induction s clock ⟨ScriptedStore.faultless_steady clock, Store.distinct_empty⟩
    (fun _ step h => h.take step) steps

theorem run_keeps (s : Settings) (clock : Nat → Int64) (inv : List Entry → Books → Prop)
    (steps more : List Step) (start : inv (run s clock steps).past (run s clock steps).books)
    (step : ∀ past b left step result, b.store.Distinct → inv past b →
      Operation.Comes s step result b left → inv (past ++ [⟨step.operation, result⟩]) left) :
    inv (run s clock (steps ++ more)).past (run s clock (steps ++ more)).books := by
  induction more using List.reverseRecOn with
  | nil => simpa using start
  | append_singleton more last ih =>
    have hsound := run_sound s clock (steps ++ more)
    rw [← List.append_assoc, run_snoc]
    exact step _ _ _ last _ hsound.distinct ih (hsound.comes last)

end Course
end CrawlCluster.Coordinator
