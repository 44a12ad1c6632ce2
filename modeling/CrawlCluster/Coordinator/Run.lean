import CrawlCluster.Coordinator.Operations
import CrawlCluster.Store.Faulty

/-!
Running one operation from start to end, with nothing in between. Besides the result it leaves
the state of the store, what the coordinator remembers, and logs of what was called, how long
was slept in between and what was recorded.
-/

set_option autoImplicit false

namespace CrawlCluster.Coordinator

structure State (σ : Type) where
  store : σ
  outstanding : Option Directive := none
  crawlId : Int32 := 0
  events : List Event := []
  calls : List StoreCall.Kind := []
  /-- The delays between the attempts at store calls, in order. -/
  slept : List Clock.Span := []
  deriving Repr

structure Site (σ : Type) where
  backend : Backend σ
  retry : RetryPolicy
  now : Int64

variable {σ α : Type}

/-- A store call, retried as the policy has it while the clock stands still. -/
def State.ask (site : Site σ) (call : StoreCall) (s : State σ) :
    Except StoreError call.Reply × State σ :=
  let run := site.retry.run (site.backend.perform site.now call) s.store
  (run.result,
    { s with
      store := run.state
      calls := s.calls ++ List.replicate run.attempts call.kind
      slept := s.slept ++ run.delays })

def Action.run (site : Site σ) : (action : Action) → State σ → action.Reply × State σ
  | .ask call, s => s.ask site call
  | .readClock, s => (site.now, s)
  | .outstanding, s => (s.outstanding, s)
  | .setOutstanding directive, s => ((), { s with outstanding := directive })
  | .crawlId, s => (s.crawlId, s)
  | .setCrawlId id, s => ((), { s with crawlId := id })
  | .record event, s => ((), { s with events := s.events ++ [event] })
  | .acquire _, s => ((), s)
  | .release _, s => ((), s)

def Program.run (site : Site σ) : Program α → State σ → Except JobError α × State σ
  | .done result, s => (result, s)
  | .act action next, s =>
    let (reply, s) := action.run site s
    (next reply).run site s

namespace Program

variable {β : Type}

theorem run_bind (site : Site σ) (p : Program α) (f : α → Program β) (s : State σ) :
    (p.bind f).run site s =
      match p.run site s with
      | (.ok value, s) => (f value).run site s
      | (.error error, s) => (.error error, s) := by
  induction p generalizing s with
  | done result => cases result <;> rfl
  | act action next ih => exact ih _ _

theorem run_ask (site : Site σ) (call : StoreCall) (f : Except StoreError call.Reply → Program α)
    (s : State σ) :
    (ask call >>= f).run site s = (f (s.ask site call).1).run site (s.ask site call).2 := rfl

/-- A program that comes to an answer has come to one at each stage. -/
theorem run_bind_ok {site : Site σ} {p : Program α} {f : α → Program β} {s : State σ} {answer : β}
    (h : ((p >>= f).run site s).1 = .ok answer) :
    ∃ value left, p.run site s = (.ok value, left) ∧
      (p >>= f).run site s = (f value).run site left := by
  have hrun : (p >>= f).run site s = _ := run_bind site p f s
  split at hrun
  · next value left hp => exact ⟨value, left, hp, hrun⟩
  · next error left hp =>
    rw [hrun] at h
    contradiction

theorem run_map (site : Site σ) (p : Program α) (f : α → β) (s : State σ) :
    (p >>= fun value => pure (f value)).run site s =
      ((p.run site s).1.map f, (p.run site s).2) := by
  refine (run_bind site p _ s).trans ?_
  generalize p.run site s = ended
  obtain ⟨result, left⟩ := ended
  cases result <;> rfl

/-- Nothing in between, nobody to exclude. -/
@[simp] theorem run_thenRelease (site : Site σ) (lock : Lock) (p : Program α) (s : State σ) :
    (p.thenRelease lock).run site s = p.run site s := by
  induction p generalizing s with
  | done result => rfl
  | act action next ih => exact ih _ _

@[simp] theorem run_holding (site : Site σ) (lock : Lock) (p : Program α) (s : State σ) :
    (holding lock p).run site s = p.run site s :=
  run_thenRelease site lock p s

end Program
end CrawlCluster.Coordinator
