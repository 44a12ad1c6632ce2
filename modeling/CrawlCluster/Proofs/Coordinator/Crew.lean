import CrawlCluster.Proofs.Coordinator.Fencing

/-!
Calls that run side by side on one coordinator whose store works. Each goes through the program of
its operation; the actions of different calls come in any order, only that a lock is had by one
call at a time. All that is done is logged, so that it can be said which lease a call passed the
check with, and what was done to a lease since it was last seen.
-/

set_option autoImplicit false

namespace CrawlCluster

def Job.lease (job : Job) : Lease := { jobId := job.id, leaseTime := job.leaseTime }

def StoreCall.written? : StoreCall → Option String
  | .grant job => some job.id
  | .retire id => some id
  | _ => none

def Store.leasedIds (s : Store) : List String := s.current.map (·.id)

instance StoreCall.decidableEqReply : (call : StoreCall) → DecidableEq call.Reply
  | .connect _ | .enqueue _ | .retire _ | .recordFailure _ | .setCrawlId _ =>
    inferInstanceAs (DecidableEq Unit)
  | .takeTop | .leased _ => inferInstanceAs (DecidableEq Job)
  | .grant _ => inferInstanceAs (DecidableEq Int64)
  | .leaseTime _ => inferInstanceAs (DecidableEq (Option Int64))
  | .depth => inferInstanceAs (DecidableEq Nat)
  | .crawlId => inferInstanceAs (DecidableEq Int32)
  | .leases => inferInstanceAs (DecidableEq (List Job))

namespace Coordinator

instance Action.decidableEqReply : (action : Action) → DecidableEq action.Reply
  | .ask call => inferInstanceAs (DecidableEq (Except StoreError call.Reply))
  | .readClock => inferInstanceAs (DecidableEq Int64)
  | .outstanding => inferInstanceAs (DecidableEq (Option Directive))
  | .crawlId => inferInstanceAs (DecidableEq Int32)
  | .setOutstanding _ | .setCrawlId _ | .record _ | .acquire _ | .release _ =>
    inferInstanceAs (DecidableEq Unit)

structure Call where
  operation : Operation
  rest : Program Answer

/-- An action that a call has taken, and what it was told. -/
structure Deed where
  call : Nat
  operation : Operation
  action : Action
  reply : action.Reply
  deriving DecidableEq

namespace Deed

def written? (deed : Deed) : Option String :=
  match deed.action with
  | .ask call => call.written?
  | _ => none

def reclaimed? (deed : Deed) : Option String :=
  match deed.action with
  | .ask (.recordFailure failed) => some failed.job.id
  | .ask (.retire id) => some id
  | _ => none

def checked? : Deed → Option Lease
  | ⟨_, _, .ask (.leaseTime jobId), .ok (some leaseTime)⟩ => some { jobId, leaseTime }
  | _ => none

def listed : Deed → List Lease
  | ⟨_, _, .ask .leases, .ok jobs⟩ => jobs.map (·.lease)
  | _ => []

def missed? : Deed → Option String
  | ⟨_, _, .ask (.leased id), .error _⟩ => some id
  | _ => none

def shown (deed : Deed) : List Lease := deed.checked?.toList ++ deed.listed

theorem eq_of_checked {deed : Deed} {lease : Lease} (h : deed.checked? = some lease) :
    deed =
      ⟨deed.call, deed.operation, .ask (.leaseTime lease.jobId), .ok (some lease.leaseTime)⟩ := by
  unfold checked? at h
  split at h
  · cases h
    rfl
  · contradiction

theorem eq_of_listed {deed : Deed} {lease : Lease} (h : lease ∈ deed.listed) :
    ∃ jobs, deed = ⟨deed.call, deed.operation, .ask .leases, .ok jobs⟩ ∧
      deed.listed = jobs.map (·.lease) := by
  unfold listed at h
  split at h
  · next jobs => exact ⟨jobs, rfl, rfl⟩
  · simp at h

end Deed

def claims (s : Settings) (call : Nat) (operation : Operation) (log : List Deed) : List Lease :=
  (log.filter (·.call == call)).flatMap Deed.listed ++ (operation.presented? s).toList

/-- The leases with which the check was passed, once for each time that it was. -/
def passed (s : Settings) : List Deed → List Lease
  | [] => []
  | deed :: earlier =>
    (deed.checked?.filter (· ∈ claims s deed.call deed.operation earlier)).toList ++
      passed s earlier

/-- The lease was seen in the table, and its row was written since. -/
def Outdated (lease : Lease) : List Deed → Prop
  | [] => False
  | deed :: earlier =>
    Outdated lease earlier ∨
      (deed.written? = some lease.jobId ∧ ∃ seen ∈ earlier, lease ∈ seen.shown)

variable [ScanOrder]

def Settings.plainSite (now : Int64) (s : Settings) : Site Store :=
  { backend := Store.backend, retry := s.retry, now }

def Action.isAnswered (left : Store) : Action → Bool
  | .ask _ => !left.exhausted
  | _ => true

/-- An action on a store that works: store calls are answered by it and change it, as long as it is
not exhausted, and nothing else does. -/
def Action.Does : (action : Action) → action.Reply → Store → Store → Prop
  | .ask call, reply, store, left => Conduct.working call store reply left ∧ left.exhausted = false
  | _, _, store, left => left = store

theorem Action.Does.live {action : Action} {reply : action.Reply} {store left : Store}
    (h : action.Does reply store left) (hlive : left.exhausted = false) :
    store.exhausted = false := by
  cases action with
  | ask call =>
    obtain ⟨⟨now, hperform⟩, -⟩ := h
    exact (Store.live_of_perform hperform hlive).1
  | _ => exact (congrArg Store.exhausted h).symm.trans hlive

theorem Action.Does.live_of_checked {call : Nat} {operation : Operation} {action : Action}
    {reply : action.Reply} {store left : Store} {lease : Lease}
    (h : action.Does reply store left)
    (hchecked : Deed.checked? ⟨call, operation, action, reply⟩ = some lease) :
    left.exhausted = false := by
  cases action with
  | ask asked => exact h.2
  | _ => cases hchecked

def Action.isFree (owner : Lock → Option Nat) : Action → Bool
  | .acquire lock => (owner lock).isNone
  | _ => true

def Action.owners (call : Nat) (owner : Lock → Option Nat) : Action → Lock → Option Nat
  | .acquire lock => Function.update owner lock (some call)
  | .release lock => Function.update owner lock none
  | _ => owner

/-- Calls under way or done, by number, with all that they did, the latest first. -/
structure Crew where
  state : State Store := { store := {} }
  calls : List Call := []
  owner : Lock → Option Nat := fun _ => none
  log : List Deed := []

inductive Tick where
  | enter (operation : Operation)
  | turn (call : Nat) (now : Int64)
  deriving DecidableEq, Repr

namespace Crew

variable (s : Settings)

def enter (operation : Operation) (c : Crew) : Crew :=
  { c with calls := c.calls ++ [{ operation, rest := operation.program s }] }

def advance (call : Nat) (operation : Operation) {action : Action}
    (next : action.Reply → Program Answer) (reply : action.Reply) (state : State Store)
    (c : Crew) : Crew :=
  { state
    calls := c.calls.set call { operation, rest := next reply }
    owner := action.owners call c.owner
    log := { call, operation, action, reply } :: c.log }

/-- The call came upon an exhausted store, or exhausted it, and comes no further. The store stays
as it was but for that, and the locks that the call had are free. -/
def cutOff (call : Nat) (c : Crew) : Crew :=
  { c with
    state := { c.state with store := { c.state.store with exhausted := true } }
    owner := fun lock => (c.owner lock).filter (· ≠ call) }

def turn (call : Nat) (now : Int64) (c : Crew) : Crew :=
  match c.calls[call]? with
  | some ⟨operation, .act action next⟩ =>
    if action.isFree c.owner then
      let (reply, state) := action.run (s.plainSite now) c.state
      if action.isAnswered state.store then c.advance call operation next reply state
      else c.cutOff call
    else c
  | _ => c

def tick (c : Crew) : Tick → Crew
  | .enter operation => c.enter s operation
  | .turn call now => c.turn s call now

def run (ticks : List Tick) : Crew := ticks.foldl (tick s) {}

def leased (c : Crew) : List String := c.state.store.leasedIds

theorem run_perform (policy : RetryPolicy) (now : Int64) (call : StoreCall) (store : Store) :
    policy.run (Store.perform now call) store =
      { result := (store.perform now call).1, state := (store.perform now call).2 } := by
  unfold RetryPolicy.run RetryPolicy.runFrom
  split
  · next he => rw [he]
  · next he => rw [he]
  · next hne he => exact absurd (Store.perform_error he).1 hne

theorem does_run (now : Int64) (action : Action) (st : State Store)
    (hanswered : action.isAnswered (action.run (s.plainSite now) st).2.store = true) :
    action.Does (action.run (s.plainSite now) st).1 st.store
      (action.run (s.plainSite now) st).2.store := by
  cases action with
  | ask call =>
    have hrun := run_perform s.retry now call st.store
    refine ⟨⟨now, ?_⟩, by simpa [Action.isAnswered] using hanswered⟩
    simp only [Action.run, State.ask, Settings.plainSite, Store.backend, hrun]
  | _ => exact rfl

/-- What a tick can come to. -/
inductive Ticked (c : Crew) : Crew → Prop where
  | idle : Ticked c c
  | enter (operation : Operation) : Ticked c (c.enter s operation)
  | advance {call : Nat} {operation : Operation} {action : Action}
    {next : action.Reply → Program Answer} {reply : action.Reply} {state : State Store}
    (hcall : c.calls[call]? = some ⟨operation, .act action next⟩)
    (hfree : action.isFree c.owner = true)
    (hdoes : action.Does reply c.state.store state.store) :
    Ticked c (c.advance call operation next reply state)
  | cutOff (call : Nat) : Ticked c (c.cutOff call)

theorem ticked (c : Crew) (tick : Tick) : Ticked s c (c.tick s tick) := by
  cases tick with
  | enter operation => exact .enter operation
  | turn call now =>
    show Ticked s c (c.turn s call now)
    unfold turn
    split
    · next hcall =>
      split
      · next hfree =>
        dsimp only
        split
        · next hanswered => exact .advance hcall hfree (does_run s now _ c.state hanswered)
        · exact .cutOff call
      · exact .idle
    · exact .idle

theorem run_append (ticks more : List Tick) :
    run s (ticks ++ more) = more.foldl (tick s) (run s ticks) := List.foldl_append ..

theorem run_keeps (inv : Crew → Prop) {c : Crew} (start : inv c)
    (step : ∀ c left, inv c → Ticked s c left → inv left) (more : List Tick) :
    inv (more.foldl (tick s) c) := by
  induction more generalizing c with
  | nil => exact start
  | cons tick more ih => exact ih (step c _ start (ticked s c tick))

end Crew
end Coordinator
end CrawlCluster
