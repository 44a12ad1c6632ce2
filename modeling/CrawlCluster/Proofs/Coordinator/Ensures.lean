import CrawlCluster.Coordinator.Run
import CrawlCluster.Proofs.Store.Scripted

/-!
What a program is sure to come to, whatever its store calls are answered within a given conduct
and whenever they are made. The rules follow the ways programs are put together; the last one
carries what was shown over to a run on a scripted store.
-/

set_option autoImplicit false

namespace CrawlCluster.Coordinator

/-- A coordinator with its store, the logs of store calls left out. -/
structure Books where
  store : Store := {}
  outstanding : Option Directive := none
  crawlId : Int32 := 0
  events : List Event := []
  deriving Repr

namespace State

def books (s : State Store) : Books :=
  { store := s.store, outstanding := s.outstanding, crawlId := s.crawlId, events := s.events }

def plain (s : State ScriptedStore) : State Store :=
  { store := s.store.store, outstanding := s.outstanding, crawlId := s.crawlId,
    events := s.events, calls := s.calls, slept := s.slept }

end State

def Settings.scriptedSite [ScanOrder] (now : Int64) (s : Settings) : Site ScriptedStore :=
  { backend := ScriptedStore.backend, retry := s.retry, now }

def Action.May (conduct : Conduct) (now : Int64) :
    (action : Action) → State Store → action.Reply → State Store → Prop
  | .ask call, s, reply, left => ∃ store repeats slept, conduct call s.store reply store ∧
      left = { s with store, calls := s.calls ++ List.replicate (repeats + 1) call.kind, slept }
  | .readClock, s, reply, left => reply = now ∧ left = s
  | .outstanding, s, reply, left => reply = s.outstanding ∧ left = s
  | .setOutstanding directive, s, _, left => left = { s with outstanding := directive }
  | .crawlId, s, reply, left => reply = s.crawlId ∧ left = s
  | .setCrawlId id, s, _, left => left = { s with crawlId := id }
  | .record event, s, _, left => left = { s with events := s.events ++ [event] }
  | .acquire _, s, _, left => left = s
  | .release _, s, _, left => left = s

namespace Program

variable {α β : Type}

def Ensures (conduct : Conduct) (now : Int64) (goal : Except JobError α → State Store → Prop) :
    Program α → State Store → Prop
  | .done result, s => goal result s
  | .act action next, s =>
    ∀ reply left, action.May conduct now s reply left → (next reply).Ensures conduct now goal left

def Then (conduct : Conduct) (now : Int64) (goal : Except JobError β → State Store → Prop)
    (f : α → Program β) : Except JobError α → State Store → Prop
  | .ok value, s => (f value).Ensures conduct now goal s
  | .error error, s => goal (.error error) s

variable {conduct : Conduct} {now : Int64} {s : State Store}
variable {goal : Except JobError β → State Store → Prop}

@[simp] theorem then_ok {f : α → Program β} {value : α} :
    Then conduct now goal f (.ok value) s = (f value).Ensures conduct now goal s := rfl

@[simp] theorem then_error {f : α → Program β} {error : JobError} :
    Then conduct now goal f (.error error) s = goal (.error error) s := rfl

theorem ensures_bind {p : Program α} {f : α → Program β} :
    (p >>= f).Ensures conduct now goal s ↔ p.Ensures conduct now (Then conduct now goal f) s := by
  induction p generalizing s with
  | done result => cases result <;> exact Iff.rfl
  | act action next ih =>
    constructor
    · intro h reply left hm
      exact (ih reply).1 (h reply left hm)
    · intro h reply left hm
      exact (ih reply).2 (h reply left hm)

@[simp] theorem ensures_pure {value : β} :
    (pure value : Program β).Ensures conduct now goal s ↔ goal (.ok value) s := Iff.rfl

@[simp] theorem ensures_fail {error : JobError} :
    (fail error).Ensures conduct now goal s ↔ goal (.error error) s := Iff.rfl

theorem Ensures.mono {goal' : Except JobError β → State Store → Prop} {p : Program β}
    (h : p.Ensures conduct now goal s)
    (himp : ∀ result left, goal result left → goal' result left) :
    p.Ensures conduct now goal' s := by
  induction p generalizing s with
  | done result => exact himp result s h
  | act action next ih => exact fun reply left hm => ih reply (h reply left hm)

theorem ensures_map {p : Program α} {f : α → β}
    (h : p.Ensures conduct now (fun result left => goal (result.map f) left) s) :
    (p >>= fun value => pure (f value)).Ensures conduct now goal s := by
  refine ensures_bind.2 (h.mono ?_)
  intro result left hgoal
  cases result <;> exact hgoal

theorem ensures_thenRelease {lock : Lock} {p : Program β} :
    (p.thenRelease lock).Ensures conduct now goal s ↔ p.Ensures conduct now goal s := by
  induction p generalizing s with
  | done result =>
    constructor
    · intro h
      exact h () s rfl
    · intro h reply left hm
      obtain rfl : left = s := hm
      exact h
  | act action next ih =>
    constructor
    · intro h reply left hm
      exact (ih reply).1 (h reply left hm)
    · intro h reply left hm
      exact (ih reply).2 (h reply left hm)

theorem ensures_holding {lock : Lock} {p : Program β} :
    (holding lock p).Ensures conduct now goal s ↔ p.Ensures conduct now goal s := by
  constructor
  · intro h
    exact ensures_thenRelease.1 (h () s rfl)
  · intro h reply left hm
    obtain rfl : left = s := hm
    exact ensures_thenRelease.2 h

def settle {α : Type} : Except StoreError α → Except JobError α
  | .ok value => .ok value
  | .error error => .error (.store error)

theorem ensures_query {call : StoreCall} {goal : Except JobError call.Reply → State Store → Prop} :
    (query call).Ensures conduct now goal s ↔ ∀ reply left,
      (Action.ask call).May conduct now s reply left → goal (settle reply) left := by
  constructor
  · intro h reply left hm
    have hr := h reply left hm
    cases reply <;> exact hr
  · intro h reply left hm
    have hr := h reply left hm
    cases reply <;> exact hr

theorem ensures_ofExcept {parsed : Except PayloadError β} :
    (ofExcept parsed).Ensures conduct now goal s ↔ goal (parsed.mapError .payload) s := by
  cases parsed <;> exact Iff.rfl

end Program

variable {α : Type} {settings : Settings} {now : Int64}

theorem ask_failing [ScanOrder] (call : StoreCall) (s : State ScriptedStore) :
    (Action.ask call).May .failing now s.plain (s.ask (settings.scriptedSite now) call).1
      (s.ask (settings.scriptedSite now) call).2.plain :=
  ⟨_, _, _, ScriptedStore.runFrom_failing now call settings.retry _ 0 s.store, rfl⟩

theorem ask_working [ScanOrder] (call : StoreCall) {s : State ScriptedStore}
    (hs : s.store.Faultless) :
    (Action.ask call).May .working now s.plain (s.ask (settings.scriptedSite now) call).1
        (s.ask (settings.scriptedSite now) call).2.plain ∧
      (s.ask (settings.scriptedSite now) call).2.store.Faultless := by
  have hrun := ScriptedStore.runFrom_working now call settings.retry settings.retry.maxRetries 0 hs
  exact ⟨⟨_, _, _, hrun.1, rfl⟩, hrun.2⟩

/-- What a program ensures is what its run comes to, if the store calls of the run go as they
should and keep on doing so. -/
theorem Program.Ensures.run [ScanOrder] {conduct : Conduct}
    {goal : Except JobError α → State Store → Prop} (good : ScriptedStore → Prop)
    (hask : ∀ (call : StoreCall) (s : State ScriptedStore), good s.store →
      (Action.ask call).May conduct now s.plain (s.ask (settings.scriptedSite now) call).1
        (s.ask (settings.scriptedSite now) call).2.plain ∧
      good (s.ask (settings.scriptedSite now) call).2.store)
    {p : Program α} {s : State ScriptedStore} (hs : good s.store)
    (h : p.Ensures conduct now goal s.plain) :
    let run := p.run (settings.scriptedSite now) s
    goal run.1 run.2.plain ∧ good run.2.store := by
  induction p generalizing s with
  | done result => exact ⟨h, hs⟩
  | act action next ih =>
    cases action with
    | ask call =>
      obtain ⟨hm, hg⟩ := hask call s hs
      exact ih _ hg (h _ _ hm)
    | readClock => exact ih _ hs (h _ _ ⟨rfl, rfl⟩)
    | outstanding => exact ih _ hs (h _ _ ⟨rfl, rfl⟩)
    | setOutstanding directive => exact ih () hs (h () _ rfl)
    | crawlId => exact ih _ hs (h _ _ ⟨rfl, rfl⟩)
    | setCrawlId id => exact ih () hs (h () _ rfl)
    | record event => exact ih () hs (h () _ rfl)
    | acquire lock => exact ih () hs (h () _ rfl)
    | release lock => exact ih () hs (h () _ rfl)

theorem Program.Ensures.run_failing [ScanOrder] {goal : Except JobError α → State Store → Prop}
    {p : Program α} {s : State ScriptedStore} (h : p.Ensures .failing now goal s.plain) :
    goal (p.run (settings.scriptedSite now) s).1 (p.run (settings.scriptedSite now) s).2.plain :=
  (h.run (fun _ => True) (fun call s _ => ⟨ask_failing call s, trivial⟩) trivial).1

theorem Program.Ensures.run_working [ScanOrder] {goal : Except JobError α → State Store → Prop}
    {p : Program α} {s : State ScriptedStore} (hs : s.store.Faultless)
    (h : p.Ensures .working now goal s.plain) :
    goal (p.run (settings.scriptedSite now) s).1 (p.run (settings.scriptedSite now) s).2.plain ∧
      (p.run (settings.scriptedSite now) s).2.store.Faultless :=
  h.run ScriptedStore.Faultless (fun call _ => ask_working call) hs

end CrawlCluster.Coordinator
