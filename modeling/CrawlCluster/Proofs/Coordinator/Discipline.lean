import CrawlCluster.Proofs.Coordinator.Crew

/-!
The discipline of the operations, whatever other calls do in between: what a call has in hand
decides what it may do next. It takes a job from the queue only under the lock on handing out, and
puts it under a lease before it lets go of that lock. It writes the row of a lease only under the
lock on leases and after it passed the check with that lease, and does not let go of the lock
before.
-/

set_option autoImplicit false

namespace CrawlCluster.Coordinator

/-- How far a call has come that has the lock on leases. -/
inductive Check where
  | unasked
  | refused
  | passed (lease : Lease)
  /-- The row of the lease was written. -/
  | settled
  deriving DecidableEq

def Check.of (known : List Lease) (jobId : String) : Except StoreError (Option Int64) → Check
  | .ok (some leaseTime) =>
    if { jobId, leaseTime } ∈ known then .passed { jobId, leaseTime } else .refused
  | _ => .refused

/-- What a call has in hand. -/
structure Grip where
  /-- The leases it may speak of. -/
  known : List Lease
  /-- With the lock on handing out, the job it took from the queue and not yet leased. -/
  crawl : Option (Option Job) := none
  leases : Option Check := none

namespace Grip

def start (s : Settings) (operation : Operation) : Grip :=
  { known := (operation.presented? s).toList }

def Holds (grip : Grip) : Lock → Prop
  | .crawl => grip.crawl ≠ none
  | .leases => grip.leases ≠ none

def Free (grip : Grip) : Prop := ∀ lock, ¬grip.Holds lock

def Entitled (id : String) (grip : Grip) : Prop :=
  ∃ lease, grip.leases = some (.passed lease) ∧ lease.jobId = id

def AllowsCall (grip : Grip) : StoreCall → Prop
  | .takeTop => grip.crawl = some none ∧ grip.leases = none
  | .grant job => grip.crawl = some (some job) ∧ grip.leases = none ∨ grip.Entitled job.id
  | .leaseTime _ => grip.leases = some .unasked
  | .leased id => grip.Entitled id
  | .recordFailure failed => grip.Entitled failed.job.id
  | .retire id => grip.Entitled id
  | .leases => grip.known = [] ∧ grip.leases = none
  | _ => grip.leases ≠ some .refused

def Allows (grip : Grip) : Action → Prop
  | .ask call => grip.AllowsCall call
  | .acquire _ => grip.Free
  | .release .crawl => grip.crawl = some none ∧ grip.leases = none
  | .release .leases => grip.leases = some .refused ∨ grip.leases = some .settled
  | _ => grip.leases ≠ some .refused

/-- What is in hand once an action was taken and answered. -/
def after (grip : Grip) : (action : Action) → action.Reply → Grip
  | .acquire .crawl, _ => { grip with crawl := some none }
  | .acquire .leases, _ => { grip with leases := some .unasked }
  | .release .crawl, _ => { grip with crawl := none }
  | .release .leases, _ => { grip with leases := none }
  | .ask .takeTop, .ok job => { grip with crawl := some (some job) }
  | .ask (.grant _), _ =>
    { grip with
      crawl := grip.crawl.map fun _ => none, leases := grip.leases.map fun _ => .settled }
  | .ask (.leaseTime id), reply => { grip with leases := some (.of grip.known id reply) }
  | .ask (.leased _), .error _ => { grip with leases := some .refused }
  | .ask (.retire _), _ => { grip with leases := grip.leases.map fun _ => .settled }
  | .ask .leases, .ok jobs => { grip with known := jobs.map (·.lease) ++ grip.known }
  | _, _ => grip

end Grip

variable [ScanOrder]

def Action.Heard (action : Action) (reply : action.Reply) : Prop :=
  ∃ store left, Store.Ordered store.current ∧ action.Does reply store left

namespace Program

variable {α β : Type}

def Obeys (goal : Except JobError α → Grip → Prop) : Program α → Grip → Prop
  | .done result, grip => goal result grip
  | .act action next, grip => grip.Allows action ∧
    ∀ reply, action.Heard reply → (next reply).Obeys goal (grip.after action reply)

def Goes (goal : Except JobError β → Grip → Prop) (f : α → Program β) :
    Except JobError α → Grip → Prop
  | .ok value, grip => (f value).Obeys goal grip
  | .error error, grip => goal (.error error) grip

variable {grip : Grip} {goal : Except JobError β → Grip → Prop}

@[simp] theorem goes_ok {f : α → Program β} {value : α} :
    Goes goal f (.ok value) grip = (f value).Obeys goal grip := rfl

theorem obeys_bind {p : Program α} {f : α → Program β} :
    (p >>= f).Obeys goal grip ↔ p.Obeys (Goes goal f) grip := by
  induction p generalizing grip with
  | done result => cases result <;> exact Iff.rfl
  | act action next ih =>
    exact and_congr_right fun _ => forall_congr' fun reply => imp_congr_right fun _ => ih reply

theorem obeys_ofExcept {parsed : Except PayloadError β} :
    (ofExcept parsed).Obeys goal grip ↔ goal (parsed.mapError .payload) grip := by
  cases parsed <;> exact Iff.rfl

theorem obeys_thenRelease {lock : Lock} {p : Program β} :
    (p.thenRelease lock).Obeys goal grip ↔ p.Obeys (fun result grip =>
      grip.Allows (.release lock) ∧ goal result (grip.after (.release lock) ())) grip := by
  induction p generalizing grip with
  | done result =>
    exact and_congr_right fun _ => ⟨fun h => h () ⟨{}, {}, .nil, rfl⟩, fun h _ _ => h⟩
  | act action next ih =>
    exact and_congr_right fun _ => forall_congr' fun reply => imp_congr_right fun _ => ih reply

theorem obeys_holding {lock : Lock} {p : Program β} (hfree : grip.Free)
    (h : p.Obeys (fun result grip =>
      grip.Allows (.release lock) ∧ goal result (grip.after (.release lock) ()))
      (grip.after (.acquire lock) ())) :
    (holding lock p).Obeys goal grip :=
  ⟨hfree, fun _ _ => obeys_thenRelease.2 h⟩

theorem obeys_perform {action : Action} {goal : Except JobError action.Reply → Grip → Prop}
    (hallows : grip.Allows action)
    (h : ∀ reply, goal (.ok reply) (grip.after action reply)) :
    (perform action).Obeys goal grip :=
  ⟨hallows, fun reply _ => h reply⟩

theorem obeys_ask {call : StoreCall}
    {goal : Except JobError (Except StoreError call.Reply) → Grip → Prop}
    (hallows : grip.AllowsCall call)
    (h : ∀ now (store : Store), Store.Ordered store.current →
      goal (.ok (store.perform now call).1)
        (grip.after (.ask call) (store.perform now call).1)) :
    (ask call).Obeys goal grip := by
  refine ⟨hallows, ?_⟩
  rintro reply ⟨store, left, hstore, ⟨now, hperform⟩, -⟩
  have hgoal := h now store hstore
  rw [hperform] at hgoal
  exact hgoal

theorem obeys_query {call : StoreCall} {goal : Except JobError call.Reply → Grip → Prop}
    (hallows : grip.AllowsCall call)
    (h : ∀ now (store : Store), Store.Ordered store.current →
      goal (settle (store.perform now call).1)
        (grip.after (.ask call) (store.perform now call).1)) :
    (query call).Obeys goal grip := by
  refine obeys_bind.2 (obeys_ask hallows ?_)
  intro now store hstore
  have hgoal := h now store hstore
  rw [goes_ok]
  cases hreply : (store.perform now call).1 with
  | ok value =>
    rw [hreply] at hgoal
    exact hgoal
  | error error =>
    rw [hreply] at hgoal
    exact hgoal

theorem Obeys.mono {goal' : Except JobError β → Grip → Prop} {p : Program β}
    (h : p.Obeys goal grip) (himp : ∀ result left, goal result left → goal' result left) :
    p.Obeys goal' grip := by
  induction p generalizing grip with
  | done result => exact himp result grip h
  | act action next ih => exact ⟨h.1, fun reply hheard => ih reply (h.2 reply hheard)⟩

def Restores (p : Program α) (grip : Grip) : Prop := p.Obeys (fun _ left => left = grip) grip

theorem Restores.bind {p : Program α} {f : α → Program β} (hp : p.Restores grip)
    (hf : ∀ value, (f value).Restores grip) : (p >>= f).Restores grip := by
  refine obeys_bind.2 (hp.mono ?_)
  rintro result _ rfl
  cases result with
  | ok value => exact hf value
  | error error => exact rfl

theorem restores_perform {action : Action} (hallows : grip.Allows action)
    (hafter : ∀ reply, grip.after action reply = grip) : (perform action).Restores grip :=
  obeys_perform hallows hafter

theorem restores_query {call : StoreCall} (hallows : grip.AllowsCall call)
    (hafter : ∀ reply, grip.after (.ask call) reply = grip) : (query call).Restores grip :=
  obeys_query hallows fun _ _ _ => hafter _

end Program

open Program

section Operations

variable {s : Settings} {known : List Lease}

omit [ScanOrder] in
theorem free_of_known : Grip.Free { known } := by
  rintro (_ | _) <;> simp [Grip.Holds]

theorem restores_enqueueNew {grip : Grip} (hgrip : grip.leases ≠ some .refused) (index : Nat)
    (jobs : List NewJob) : (enqueueNew s index jobs).Restores grip := by
  induction jobs generalizing index with
  | nil => exact rfl
  | cons job jobs ih =>
    unfold enqueueNew
    have hasked : (ask (.enqueue (newEntry s job))).Restores grip :=
      obeys_ask hgrip fun _ _ _ => rfl
    refine hasked.bind fun reply => ?_
    refine Restores.bind ?_ fun _ => ih _
    cases reply <;> exact rfl

theorem restores_acceptJobs (jobs : List NewJob) : (acceptJobs s jobs).Restores { known } := by
  unfold acceptJobs
  split
  · exact rfl
  · exact (restores_enqueueNew (by simp) 0 jobs).bind fun _ => rfl

theorem restores_direct (now : Int64) (outstanding fresh : Option Directive) :
    (direct now outstanding fresh).Restores { known, crawl := some none } := by
  unfold direct
  cases fresh with
  | some directive => exact rfl
  | none =>
    refine Restores.bind (restores_perform (by simp [Grip.Allows]) fun _ => rfl) fun crawlId => ?_
    exact Restores.bind (restores_perform (by simp [Grip.Allows]) fun _ => rfl) fun _ => rfl

theorem obeys_grant (job : Job) :
    (grant job).Obeys (fun _ left => left = { known, crawl := some none })
      { known, crawl := some (some job) } := by
  unfold grant
  refine obeys_bind.2 (obeys_ask (.inl ⟨rfl, rfl⟩) ?_)
  intro now store _
  exact rfl

/-- Under the lock on handing out nothing is left in hand in the end but the lock. -/
theorem restores_holding_crawl {α : Type} {p : Program α}
    (h : p.Restores { known, crawl := some none }) : (holding .crawl p).Restores { known } := by
  refine obeys_holding free_of_known (h.mono ?_)
  rintro result _ rfl
  exact ⟨⟨rfl, rfl⟩, rfl⟩

theorem restores_takeJob : (takeJob s).Restores { known } := by
  unfold takeJob
  refine restores_holding_crawl ?_
  refine Restores.bind (restores_perform (by simp [Grip.Allows]) fun _ => rfl) fun now => ?_
  refine Restores.bind (restores_perform (by simp [Grip.Allows]) fun _ => rfl) fun outstanding => ?_
  refine Restores.bind (restores_query (by simp [Grip.AllowsCall]) fun _ => rfl) fun depth => ?_
  split
  · refine obeys_bind.2 (obeys_ask ⟨rfl, rfl⟩ ?_)
    intro t store _
    simp only [Store.perform, goes_ok]
    cases store.takeTop with
    | none => exact restores_direct now outstanding _
    | some taken => exact obeys_grant taken.1
  · exact restores_direct now outstanding _

/-- Under the lock on leases a call is sent away, or writes the row of the lease it passed with. -/
theorem restores_holding_leases {α : Type} {p : Program α}
    (h : p.Obeys (fun _ left => left = { known, leases := some .refused } ∨
      left = { known, leases := some .settled }) { known, leases := some .unasked }) :
    (holding .leases p).Restores { known } := by
  refine obeys_holding free_of_known (h.mono ?_)
  rintro result _ (rfl | rfl)
  · exact ⟨.inl rfl, rfl⟩
  · exact ⟨.inr rfl, rfl⟩

def Sole (lease : Lease) (known : List Lease) : Prop :=
  lease ∈ known ∧ ∀ other ∈ known, other.jobId = lease.jobId → other = lease

omit [ScanOrder] in
theorem Check.of_sole {lease : Lease} (h : Sole lease known) (current : Option Int64) :
    Check.of known lease.jobId (.ok current) =
      if current = some lease.leaseTime then .passed lease else .refused := by
  cases current with
  | none => rfl
  | some leaseTime =>
    have hmem : { jobId := lease.jobId, leaseTime } ∈ known ↔ leaseTime = lease.leaseTime := by
      constructor
      · intro hmem
        exact congrArg Lease.leaseTime (h.2 _ hmem rfl)
      · rintro rfl
        exact h.1
    by_cases htime : leaseTime = lease.leaseTime
    · subst htime
      simp [Check.of, h.1]
    · simp [Check.of, hmem, htime]

theorem obeys_fenced {lease : Lease} (h : Sole lease known) :
    (fenced lease).Obeys (fun result left => match result with
      | .ok job => job.id = lease.jobId ∧ left = { known, leases := some (.passed lease) }
      | .error _ => left = { known, leases := some .refused })
      { known, leases := some .unasked } := by
  unfold fenced
  refine obeys_bind.2 (obeys_query rfl ?_)
  intro now store _
  simp only [Store.perform, settle, goes_ok, Grip.after, Check.of_sole h]
  split
  · refine obeys_bind.2 (obeys_ask ⟨lease, rfl, rfl⟩ ?_)
    intro now store _
    simp only [Store.perform, goes_ok]
    cases hjob : store.leased? lease.jobId with
    | none => exact rfl
    | some job => exact ⟨by simpa using List.find?_some hjob, rfl⟩
  · exact rfl

theorem restores_renew (lease : Lease) : (renew lease).Restores { known := [lease] } := by
  have hsole : Sole lease [lease] := by simp [Sole]
  refine restores_holding_leases (obeys_bind.2 ((obeys_fenced hsole).mono ?_))
  rintro (error | job) left hleft
  · exact .inl hleft
  · obtain ⟨hid, rfl⟩ := hleft
    exact obeys_query (.inr ⟨lease, rfl, hid.symm⟩) fun _ _ _ => .inr rfl

theorem restores_acceptReport (node : Peer) (client : String) (said : Report) :
    (acceptReport s node client said).Restores { known := [said.lease] } := by
  have hsole : Sole said.lease [said.lease] := by simp [Sole]
  refine restores_holding_leases (obeys_bind.2 ((obeys_fenced hsole).mono ?_))
  rintro (error | job) left hleft
  · exact .inl hleft
  · obtain ⟨hid, rfl⟩ := hleft
    have hentitled : Grip.Entitled job.id
      { known := [said.lease], leases := some (.passed said.lease) } := ⟨_, rfl, hid.symm⟩
    refine obeys_bind.2 (obeys_perform (by simp [Grip.Allows]) fun _ => ?_)
    rw [goes_ok]
    split
    · refine obeys_bind.2 (obeys_query hentitled fun _ _ _ => ?_)
      exact obeys_bind.2 (obeys_perform (by simp [Grip.Allows, Grip.after]) fun _ => .inr rfl)
    · refine obeys_bind.2 (obeys_query hentitled fun _ _ _ => ?_)
      simp only [Store.perform, settle, goes_ok]
      split
      · refine obeys_bind.2 (obeys_query (by simp [Grip.AllowsCall, Grip.after]) fun _ _ _ => ?_)
        exact obeys_bind.2 (obeys_query hentitled fun _ _ _ => .inr rfl)
      · exact obeys_bind.2 (obeys_query hentitled fun _ _ _ => .inr rfl)

theorem restores_reclaim {job : Job} (h : Sole job.lease known) :
    (reclaim s job).Restores { known } := by
  refine restores_holding_leases (obeys_bind.2 (obeys_query rfl ?_))
  intro now store _
  have hcheck := Check.of_sole h ((store.leased? job.id).map (·.leaseTime))
  simp only [Job.lease] at hcheck
  simp only [Store.perform, settle, goes_ok, Grip.after, hcheck]
  by_cases hcurrent : (store.leased? job.id).map (·.leaseTime) = some job.leaseTime
  · simp only [hcurrent, if_true]
    have hentitled : Grip.Entitled job.id { known, leases := some (.passed job.lease) } :=
      ⟨_, rfl, rfl⟩
    refine obeys_bind.2 (obeys_query hentitled fun _ _ _ => ?_)
    refine obeys_bind.2 (obeys_query hentitled fun _ _ _ => ?_)
    simp only [Store.perform, settle, goes_ok]
    split
    · refine obeys_bind.2 (obeys_query (by simp [Grip.AllowsCall, Grip.after]) fun _ _ _ => ?_)
      exact .inr rfl
    · exact .inr rfl
  · simp only [hcurrent, if_false]
    exact .inl rfl

theorem restores_reclaimEach (jobs : List Job) (count : Nat)
    (h : ∀ job ∈ jobs, Sole job.lease known) :
    (reclaimEach s jobs count).Restores { known } := by
  induction jobs generalizing count with
  | nil => exact rfl
  | cons job jobs ih =>
    refine (restores_reclaim (h job (by simp))).bind fun reclaimed => ?_
    exact ih _ fun other hother => h other (List.mem_cons_of_mem _ hother)

theorem obeys_sweep (before : Int64) :
    (sweep s before).Obeys (fun _ left => left.Free) { known := [] } := by
  unfold sweep
  refine obeys_bind.2 (obeys_query ⟨rfl, rfl⟩ ?_)
  intro now store hstore
  simp only [Store.perform, settle, goes_ok, Grip.after, List.append_nil]
  refine (restores_reclaimEach _ 0 ?_).mono ?_
  · intro job hjob
    have hjob := List.mem_of_mem_filter hjob
    refine ⟨List.mem_map_of_mem hjob, ?_⟩
    intro other hother hid
    obtain ⟨row, hrow, rfl⟩ := List.mem_map.1 hother
    rw [List.inj_on_of_nodup_map hstore.nodup_scan hrow hjob hid]
  · rintro result _ rfl
    exact free_of_known

theorem restores_consume (directive : Directive) : (consume directive).Restores { known } := by
  refine restores_holding_crawl ?_
  refine Restores.bind (restores_perform (by simp [Grip.Allows]) fun _ => rfl) fun outstanding => ?_
  split
  · exact restores_perform (by simp [Grip.Allows]) fun _ => rfl
  · exact rfl

theorem restores_acceptHarvest (brought : Harvest) :
    (acceptHarvest s brought).Restores { known } := by
  unfold acceptHarvest adoptCrawlId
  refine (restores_consume brought.directive).bind fun _ => ?_
  refine Restores.bind ?_ fun _ => ?_
  · refine Restores.bind (restores_perform (by simp [Grip.Allows]) fun _ => rfl) fun crawlId => ?_
    split
    · refine Restores.bind (restores_query (by simp [Grip.AllowsCall]) fun _ => rfl) fun _ => ?_
      exact restores_perform (by simp [Grip.Allows]) fun _ => rfl
    · exact rfl
  · have hrest : (enqueueNew s 0 brought.jobs >>= fun _ => pure uploaded).Restores { known } :=
      (restores_enqueueNew (by simp) 0 brought.jobs).bind fun _ => rfl
    split
    · exact Restores.bind (restores_perform (by simp [Grip.Allows]) fun _ => rfl) fun _ => hrest
    · exact hrest

theorem obeys_of_restores {α β : Type} {p : Program α} (f : α → β) (h : p.Restores { known }) :
    (p >>= fun value => pure (f value)).Obeys (fun _ left => left.Free) { known } := by
  refine obeys_bind.2 (h.mono ?_)
  rintro (error | value) _ rfl <;> exact free_of_known

theorem obeys_request (request : Request) {operation : Operation}
    (hread : operation.read s = .ok request) :
    (request.program s).Obeys (fun _ left => left.Free) (Grip.start s operation) := by
  simp only [Grip.start, Operation.presented?, hread]
  cases request with
  | upload jobs => exact obeys_of_restores _ (restores_acceptJobs jobs)
  | harvest brought => exact obeys_of_restores _ (restores_acceptHarvest brought)
  | takeJob => exact obeys_of_restores _ restores_takeJob
  | renew lease => exact obeys_of_restores _ (restores_renew lease)
  | report node client said => exact obeys_of_restores _ (restores_acceptReport node client said)
  | sweep before =>
    refine obeys_bind.2 ((obeys_sweep before).mono ?_)
    rintro (error | count) left hleft <;> exact hleft

/-- Every operation keeps to the discipline, whatever it is told, and ends without a lock. -/
theorem obeys_program (operation : Operation) :
    (operation.program s).Obeys (fun _ left => left.Free) (Grip.start s operation) := by
  rw [Operation.program_eq, obeys_bind, obeys_ofExcept]
  cases hread : operation.read s with
  | error error => exact free_of_known
  | ok request => exact obeys_request request hread

end Operations
end CrawlCluster.Coordinator
