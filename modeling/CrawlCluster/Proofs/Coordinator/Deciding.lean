import CrawlCluster.Proofs.Coordinator.Directives
import CrawlCluster.Proofs.Coordinator.Refusals

set_option autoImplicit false

namespace CrawlCluster.Coordinator

open Program

variable {σ α β : Type}

section Sparing

def Action.Spares (action : Action) : Prop := ∀ directive, action ≠ .setOutstanding directive

theorem Action.Spares.run {action : Action} (h : action.Spares) (site : Site σ) (st : State σ) :
    (action.run site st).2.outstanding = st.outstanding := by
  cases action with
  | setOutstanding directive => exact absurd rfl (h directive)
  | _ => rfl

def Program.Spares : Program α → Prop
  | .done _ => True
  | .act action next => action.Spares ∧ ∀ reply, (next reply).Spares

namespace Program

theorem Spares.run {p : Program α} (hp : p.Spares) (site : Site σ) (st : State σ) :
    (p.run site st).2.outstanding = st.outstanding := by
  induction p generalizing st with
  | done result => rfl
  | act action next ih => exact (ih _ (hp.2 _) _).trans (hp.1.run site st)

theorem Spares.bind {p : Program α} {f : α → Program β} (hp : p.Spares)
    (hf : ∀ value, (f value).Spares) : (p >>= f).Spares := by
  induction p with
  | done result =>
    cases result with
    | ok value => exact hf value
    | error error => trivial
  | act action next ih => exact ⟨hp.1, fun reply => ih reply (hp.2 reply)⟩

theorem Spares.holding {p : Program α} (lock : Lock) (hp : p.Spares) :
    (Program.holding lock p).Spares := by
  refine ⟨nofun, fun _ => ?_⟩
  induction p with
  | done result => exact ⟨nofun, fun _ => trivial⟩
  | act action next ih => exact ⟨hp.1, fun reply => ih reply (hp.2 reply)⟩

theorem spares_perform {action : Action} (h : action.Spares) : (perform action).Spares :=
  ⟨h, fun _ => trivial⟩

theorem spares_ask (call : StoreCall) : (ask call).Spares := spares_perform nofun

theorem spares_orFail (error : StoreError → JobError) (reply : Except StoreError α) :
    (orFail error reply).Spares := by
  cases reply <;> trivial

theorem spares_query (call : StoreCall) : (query call).Spares :=
  (spares_ask call).bind (spares_orFail _)

theorem spares_pure (value : α) : (pure value : Program α).Spares := trivial

theorem spares_fail (error : JobError) : (fail error : Program α).Spares := trivial

end Program

theorem spares_enqueueNew (s : Settings) (index : Nat) (jobs : List NewJob) :
    (enqueueNew s index jobs).Spares := by
  induction jobs generalizing index with
  | nil => exact spares_pure ()
  | cons job jobs ih =>
    exact (spares_ask _).bind fun _ => (spares_orFail _ _).bind fun _ => ih (index + 1)

theorem spares_acceptJobs (s : Settings) (jobs : List NewJob) : (acceptJobs s jobs).Spares := by
  unfold acceptJobs
  split
  · exact spares_fail _
  · exact (spares_enqueueNew s 0 jobs).bind fun _ => spares_pure _

theorem spares_grant (job : Job) : (grant job).Spares := by
  refine (spares_ask _).bind fun reply => ?_
  cases reply with
  | ok leaseTime => exact spares_pure _
  | error error => exact (spares_ask _).bind fun _ => spares_fail _

theorem spares_fenced (lease : Lease) : (fenced lease).Spares := by
  refine (spares_query _).bind fun current => ?_
  split
  · refine (spares_ask _).bind fun reply => ?_
    split <;> trivial
  · exact spares_fail _

theorem spares_renew (lease : Lease) : (renew lease).Spares :=
  .holding .leases ((spares_fenced lease).bind fun _ => spares_query _)

theorem spares_acceptReport (s : Settings) (node : Peer) (client : String) (report : Report) :
    (acceptReport s node client report).Spares := by
  refine .holding .leases ((spares_fenced _).bind fun job =>
    (spares_perform (by nofun)).bind fun _ => ?_)
  have hretire (text : String) : (do query (.retire job.id); return text : Program String).Spares :=
    (spares_query _).bind fun _ => spares_pure _
  split
  · exact (spares_query _).bind fun _ => (spares_perform (by nofun)).bind fun _ => spares_pure _
  · refine (spares_query _).bind fun _ => ?_
    split
    · exact (spares_query _).bind fun _ => hretire _
    · exact hretire _

theorem spares_reclaim (s : Settings) (job : Job) : (reclaim s job).Spares := by
  refine .holding .leases ((spares_query _).bind fun current => ?_)
  split
  · refine (spares_query _).bind fun _ => (spares_query _).bind fun _ => ?_
    split
    · exact (spares_query _).bind fun _ => spares_pure _
    · exact spares_pure _
  · exact spares_pure _

theorem spares_reclaimEach (s : Settings) (jobs : List Job) (count : Nat) :
    (reclaimEach s jobs count).Spares := by
  induction jobs generalizing count with
  | nil => exact spares_pure _
  | cons job jobs ih => exact (spares_reclaim s job).bind fun _ => ih _

theorem spares_sweep (s : Settings) (now : Int64) : (sweep s now).Spares :=
  (spares_query _).bind fun _ => spares_reclaimEach s _ 0

theorem spares_adoptCrawlId (crawlId : Int32) : (adoptCrawlId crawlId).Spares := by
  refine (spares_perform (by nofun)).bind fun known => ?_
  split
  · exact (spares_query _).bind fun _ => spares_perform (by nofun)
  · exact spares_pure ()

end Sparing

section Deciding

theorem isFresh_iff {s : Settings} {now : Int64} {directive : Directive} :
    isFresh s now directive = true ↔
      (Clock.nearest (now.toInt - directive.token.toInt)).toInt ≤ s.cooldown.millis := by
  simp only [isFresh, decide_eq_true_eq, Int64.le_iff_toInt_le, Clock.toInt_nearest]
  omega

/-- One that bears no time before the epoch was issued no longer ago than the cooldown. -/
theorem le_cooldown_of_isFresh {s : Settings} {now : Int64} {directive : Directive}
    (h : isFresh s now directive = true) (htoken : 0 ≤ directive.token) :
    now.toInt - directive.token.toInt ≤ s.cooldown.millis := by
  rw [isFresh_iff, Clock.toInt_nearest] at h
  have hnonneg : 0 ≤ directive.token.toInt := by simpa [Int64.le_iff_toInt_le] using htoken
  have hmax := now.toInt_lt
  omega

theorem cooldown_lt_of_not_isFresh {s : Settings} {now : Int64} {directive : Directive}
    (h : isFresh s now directive = false) :
    (s.cooldown.millis : Int) < now.toInt - directive.token.toInt := by
  rw [← Bool.not_eq_true, isFresh_iff, Clock.toInt_nearest] at h
  omega

/-- The ways a request for a job can end: what is answered, and the directive awaited then. -/
inductive Decided (s : Settings) (now : Int64) (depth : Except StoreError Nat)
    (awaited : Option Directive) : Except JobError Assignment → Option Directive → Prop where
  | idle {directive : Directive} (hawaited : awaited = some directive)
      (hfresh : isFresh s now directive = true) : Decided s now depth awaited
        (.ok (.idle directive)) awaited
  | crawl {directive : Directive} (hfresh : awaited.filter (isFresh s now) = none)
      (htoken : directive.token = now) : Decided s now depth awaited
        (.ok (.crawl directive)) (some directive)
  | spider {id url : String} {leaseTime timeout : Int64} {n : Nat} (hdepth : depth = .ok n)
      (henough : s.minQueued ≤ n ∨
        1 ≤ n ∧ ∃ directive, awaited = some directive ∧ isFresh s now directive = true) :
      Decided s now depth awaited (.ok (.spider id url leaseTime timeout)) awaited
  | failed (error : JobError) : Decided s now depth awaited (.error error) awaited

variable {s : Settings} {site : Site σ} {depth : Except StoreError Nat}

theorem decided_direct (st : State σ) :
    let run := (direct site.now st.outstanding
      (st.outstanding.filter (isFresh s site.now))).run site st
    Decided s site.now depth st.outstanding run.1 run.2.outstanding := by
  cases hfresh : st.outstanding.filter (isFresh s site.now) with
  | none => exact .crawl hfresh (nextToken_eq hfresh)
  | some directive =>
    obtain ⟨hawaited, h⟩ := Option.filter_eq_some_iff.1 hfresh
    exact .idle hawaited h

theorem decided_grant (job : Job) (st : State σ) {n : Nat} (hdepth : depth = .ok n)
    (henough : s.minQueued ≤ n ∨
      1 ≤ n ∧ ∃ directive, st.outstanding = some directive ∧ isFresh s site.now directive = true) :
    let run := (grant job).run site st
    Decided s site.now depth st.outstanding run.1 run.2.outstanding := by
  intro run
  rw [(spares_grant job).run site st]
  have hrun : run = _ := run_ask site (.grant job) _ st
  rw [hrun]
  cases (st.ask site (.grant job)).1 with
  | ok leaseTime => exact .spider hdepth henough
  | error error => exact .failed _

def takeAt (s : Settings) (now : Int64) (awaited : Option Directive) (n : Nat) :
    Program Assignment := do
  if s.minQueued ≤ n || ((awaited.filter (isFresh s now)).isSome && 1 ≤ n) then
    match ← ask .takeTop with
    | .ok job => grant job
    | .error .notFound => direct now awaited (awaited.filter (isFresh s now))
    | .error error => fail (.store error)
  else direct now awaited (awaited.filter (isFresh s now))

theorem run_takeJob (s : Settings) (site : Site σ) (st : State σ) :
    (takeJob s).run site st =
      (query .depth >>= takeAt s site.now st.outstanding).run site st :=
  run_holding site .crawl _ st

theorem decided_takeAt (st : State σ) {n : Nat} (hdepth : depth = .ok n) :
    let run := (takeAt s site.now st.outstanding n).run site st
    Decided s site.now depth st.outstanding run.1 run.2.outstanding := by
  intro run
  by_cases henough : s.minQueued ≤ n ||
      ((st.outstanding.filter (isFresh s site.now)).isSome && 1 ≤ n)
  · have henough' : s.minQueued ≤ n ∨ 1 ≤ n ∧
        ∃ directive, st.outstanding = some directive ∧ isFresh s site.now directive = true := by
      simpa [Option.isSome_filter, Option.any_eq_true, and_comm] using henough
    have hleft : (st.ask site .takeTop).2.outstanding = st.outstanding := rfl
    have hrun : run = _ :=
      (congrArg (Program.run site · st) (if_pos henough)).trans (run_ask site .takeTop _ st)
    rw [hrun, ← hleft]
    split
    · exact decided_grant _ _ hdepth henough'
    · exact decided_direct _
    · exact .failed _
  · simp only [run, takeAt, if_neg henough]
    exact decided_direct st

theorem decided_takeJob (s : Settings) (site : Site σ) (st : State σ) :
    let run := (takeJob s).run site st
    Decided s site.now (st.ask site .depth).1 st.outstanding run.1 run.2.outstanding := by
  intro run
  let left := (st.ask site .depth).2
  have hleft : left.outstanding = st.outstanding := rfl
  have hrun : run = ((orFail .store (st.ask site .depth).1).bind
      (takeAt s site.now left.outstanding)).run site left := run_takeJob s site st
  rw [hrun, ← hleft]
  cases hdepth : (st.ask site .depth).1 with
  | ok n => exact decided_takeAt left rfl
  | error error => exact .failed _

end Deciding

section Delivering

theorem spares_deliver (s : Settings) (harvest : Harvest) : (deliver s harvest).Spares := by
  refine (spares_adoptCrawlId _).bind fun _ => ?_
  have hrest : (do enqueueNew s 0 harvest.jobs; return uploaded : Program String).Spares :=
    (spares_enqueueNew s 0 harvest.jobs).bind fun _ => spares_pure _
  split
  · exact (spares_perform (by nofun)).bind fun _ => hrest
  · exact hrest

theorem Program.Heeds.run {m : Manner} {post : Except JobError α → Prop} {p : Program α}
    (hp : p.Heeds m post) (site : Site σ)
    (hshows : ∀ call, m.asks call → ∀ st : State σ, m.shows call (st.ask site call).1)
    (st : State σ) : post (p.run site st).1 := by
  induction p generalizing st with
  | done result => exact hp
  | act action next ih =>
    cases action with
    | ask call => exact ih _ (hp.2 _ (hshows call hp.1 st)) _
    | _ => exact ih _ (hp _) _

def Manner.writing : Manner where
  asks call := call.kind = .enqueue ∨ call.kind = .setCrawlId
  shows _ reply := ∃ value, reply = .ok value

def Manner.ShownBy (m : Manner) (backend : Backend σ) : Prop :=
  ∀ call, m.asks call → ∀ now st, m.shows call (backend.perform now call st).1

/-- Comes to an answer and not to an error. -/
def Answered (result : Except JobError α) : Prop := ∃ answer, result = .ok answer

theorem Program.Heeds.thenAnswers {p : Program α} {f : α → Program β}
    (hp : p.Heeds .writing Answered) (hf : ∀ value, (f value).Heeds .writing Answered) :
    (p >>= f).Heeds .writing Answered :=
  hp.bind (fun value _ => hf value) fun _ ⟨_, h⟩ => nomatch h

theorem answering_orFail (error : StoreError → JobError) {reply : Except StoreError α}
    (h : ∃ value, reply = .ok value) : (orFail error reply).Heeds .writing Answered := by
  obtain ⟨value, rfl⟩ := h
  exact ⟨value, rfl⟩

theorem answering_enqueueNew (s : Settings) (index : Nat) (jobs : List NewJob) :
    (enqueueNew s index jobs).Heeds .writing Answered := by
  induction jobs generalizing index with
  | nil => exact ⟨(), rfl⟩
  | cons job jobs ih =>
    refine ⟨.inl rfl, fun reply hreply => ?_⟩
    exact (answering_orFail _ hreply).thenAnswers fun _ => ih (index + 1)

theorem answering_adoptCrawlId (crawlId : Int32) :
    (adoptCrawlId crawlId).Heeds .writing Answered := by
  have hknown : (perform .crawlId).Heeds .writing Answered := fun known => ⟨known, rfl⟩
  refine hknown.thenAnswers fun known => ?_
  split
  · have hset : (query (.setCrawlId crawlId)).Heeds .writing Answered :=
      ⟨.inr rfl, fun _ hreply => answering_orFail _ hreply⟩
    exact hset.thenAnswers fun _ _ => ⟨_, rfl⟩
  · exact ⟨_, rfl⟩

theorem answering_deliver (s : Settings) (harvest : Harvest) :
    (deliver s harvest).Heeds .writing Answered := by
  refine (answering_adoptCrawlId _).thenAnswers fun _ => ?_
  have hrest : (do enqueueNew s 0 harvest.jobs; return uploaded : Program String).Heeds
      .writing Answered :=
    (answering_enqueueNew s 0 harvest.jobs).thenAnswers fun _ => ⟨_, rfl⟩
  split
  · exact fun _ => hrest
  · exact hrest

theorem run_consume (site : Site σ) (st : State σ) (directive : Directive) :
    (consume directive).run site st =
      if st.outstanding.map (·.token) = some directive.token then
        (.ok (), { st with outstanding := none })
      else (.error .crawlDeprecated, st) := by
  refine (run_holding site .crawl _ st).trans ?_
  show (if _ then perform (.setOutstanding none) else _ : Program Unit).run site st = _
  split <;> rfl

/-- A harvest is turned down unless it bears the token awaited, and otherwise uses it up,
whatever comes of the rest. -/
theorem run_acceptHarvest (s : Settings) (site : Site σ) (st : State σ) (brought : Harvest) :
    let run := (acceptHarvest s brought).run site st
    (st.outstanding.map (·.token) = some brought.directive.token ∧
      run = (deliver s brought).run site { st with outstanding := none }) ∨
    (st.outstanding.map (·.token) ≠ some brought.directive.token ∧
      run = (.error .crawlDeprecated, st)) := by
  intro run
  have hrun := run_bind site (consume brought.directive) (fun _ => deliver s brought) st
  by_cases htoken : st.outstanding.map (·.token) = some brought.directive.token
  · rw [run_consume, if_pos htoken] at hrun
    exact .inl ⟨htoken, hrun⟩
  · rw [run_consume, if_neg htoken] at hrun
    exact .inr ⟨htoken, hrun⟩

end Delivering

def Entry.spent? (s : Settings) (entry : Entry) : Option Directive :=
  match entry.operation.read s, entry.result with
  | .ok (.harvest _), .error .crawlDeprecated => none
  | .ok (.harvest brought), _ => some brought.directive
  | _, _ => none

section Steps

variable {s : Settings} {site : Site σ} {st : State σ} {operation : Operation}

theorem Operation.run_of_read {request : Request} (hread : operation.read s = .ok request) :
    (operation.program s).run site st = (request.program s).run site st := by
  rw [operation.program_eq, hread]
  rfl

theorem Operation.run_of_unread {error : PayloadError} (hread : operation.read s = .error error) :
    (operation.program s).run site st = (.error (.payload error), st) := by
  rw [operation.program_eq, hread]
  rfl

/-- What an operation does about directives, over any store: nothing, or it issues one, or it uses
one up. -/
inductive Turns (s : Settings) (awaited : Option Directive) (entry : Entry) :
    Option Directive → Prop where
  | none (hissued : entry.issued? = none) (hspent : entry.spent? s = none) :
      Turns s awaited entry awaited
  | issue {directive : Directive} (hissued : entry.issued? = some directive)
      (hspent : entry.spent? s = none) : Turns s awaited entry (some directive)
  | spend {directive : Directive} (hissued : entry.issued? = none)
      (hspent : entry.spent? s = some directive)
      (htoken : awaited.map (·.token) = some directive.token) : Turns s awaited entry none

theorem turns_sparing {p : Program α} (hp : p.Spares) (f : α → Answer)
    (hf : ∀ value directive, f value ≠ .assignment (.crawl directive))
    (hspent : ∀ result, Entry.spent? s ⟨operation, result⟩ = none) :
    let run := (p >>= fun value => pure (f value)).run site st
    Turns s st.outstanding ⟨operation, run.1⟩ run.2.outstanding := by
  intro run
  have hrun : run = ((p.run site st).1.map f, (p.run site st).2) := run_map site p f st
  rw [hrun, hp.run site st]
  refine .none ?_ (hspent _)
  cases (p.run site st).1 with
  | ok value =>
    unfold Entry.issued?
    split
    · next directive hanswer => exact absurd (Except.ok.inj hanswer) (hf value directive)
    · rfl
  | error error => rfl

theorem decided_request (s : Settings) (site : Site σ) (st : State σ) :
    let run := (Request.takeJob.program s).run site st
    ∃ result : Except JobError Assignment, run.1 = result.map .assignment ∧
      Decided s site.now (st.ask site .depth).1 st.outstanding result run.2.outstanding := by
  intro run
  have hrun : run = _ := run_map site (takeJob s) Answer.assignment st
  rw [hrun]
  exact ⟨_, rfl, decided_takeJob s site st⟩

theorem turns_takeJob (hspent : ∀ result, Entry.spent? s ⟨operation, result⟩ = none) :
    let run := (Request.takeJob.program s).run site st
    Turns s st.outstanding ⟨operation, run.1⟩ run.2.outstanding := by
  intro run
  obtain ⟨result, hresult, hdecided⟩ := decided_request s site st
  rw [hresult]
  generalize run.2.outstanding = left at hdecided
  cases hdecided with
  | crawl => exact .issue rfl (hspent _)
  | _ => exact .none rfl (hspent _)

theorem turns_harvest {brought : Harvest} (hread : operation.read s = .ok (.harvest brought)) :
    let run := ((Request.harvest brought).program s).run site st
    Turns s st.outstanding ⟨operation, run.1⟩ run.2.outstanding := by
  intro run
  have hrun : run = _ := run_map site (acceptHarvest s brought) Answer.text st
  rw [hrun]
  rcases run_acceptHarvest s site st brought with ⟨htoken, hdelivered⟩ | ⟨-, hrefused⟩
  · have hblameless := (unrefusing_deliver s brought).run site (fun _ _ _ => trivial)
      { st with outstanding := none }
    have hleft : ((acceptHarvest s brought).run site st).2.outstanding = none := by
      rw [hdelivered, (spares_deliver s brought).run site]
    rw [← hdelivered] at hblameless
    rw [hleft]
    refine .spend ?_ ?_ htoken
    · cases ((acceptHarvest s brought).run site st).1 <;> rfl
    · cases hresult : ((acceptHarvest s brought).run site st).1 with
      | ok answer => simp [Entry.spent?, hread, Except.map]
      | error error =>
        have hother : error ≠ .crawlDeprecated := by
          rintro rfl
          exact hblameless _ hresult (by simp [JobError.isRefusal_iff])
        unfold Entry.spent?
        split <;> simp_all [Except.map]
  · rw [hrefused]
    exact .none rfl (by simp [Entry.spent?, hread, Except.map])

theorem turns_operation (s : Settings) (site : Site σ) (st : State σ) (operation : Operation) :
    let run := (operation.program s).run site st
    Turns s st.outstanding ⟨operation, run.1⟩ run.2.outstanding := by
  intro run
  cases hread : operation.read s with
  | error error =>
    have hrun : run = (.error (.payload error), st) := Operation.run_of_unread hread
    rw [hrun]
    exact .none rfl (by simp [Entry.spent?, hread])
  | ok request =>
    have hspent (hother : ∀ brought, request ≠ .harvest brought) (result) :
        Entry.spent? s ⟨operation, result⟩ = none := by
      cases request <;> simp_all [Entry.spent?]
    have hrun : run = (request.program s).run site st := Operation.run_of_read hread
    rw [hrun]
    cases request with
    | upload jobs =>
      exact turns_sparing (spares_acceptJobs s jobs) Answer.text (by simp) (hspent (by simp))
    | harvest brought => exact turns_harvest hread
    | takeJob => exact turns_takeJob (hspent (by simp))
    | renew lease =>
      exact turns_sparing (spares_renew lease) Answer.leaseTime (by simp) (hspent (by simp))
    | report node client said =>
      exact turns_sparing (spares_acceptReport s node client said) Answer.text (by simp)
        (hspent (by simp))
    | sweep now =>
      exact turns_sparing (spares_sweep s now) Answer.count (by simp) (hspent (by simp))

theorem harvest_of_spent {entry : Entry} {directive : Directive}
    (h : entry.spent? s = some directive) :
    ∃ brought, entry.operation.read s = .ok (.harvest brought) ∧
      entry.result ≠ .error .crawlDeprecated := by
  unfold Entry.spent? at h
  split at h
  · contradiction
  · next brought hread hother => exact ⟨brought, hread, hother⟩
  · contradiction

end Steps

end CrawlCluster.Coordinator
