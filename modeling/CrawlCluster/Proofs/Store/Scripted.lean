import CrawlCluster.Retry
import CrawlCluster.Store.Basic

/-!
The store in memory under a script: for each call to come, what the clock shows when it is made
and whether it fails. A call that fails leaves the store alone. The clock may move, in either
direction, between any two calls, those of one operation included.
-/

set_option autoImplicit false

namespace CrawlCluster

structure Turn where
  now : Int64
  fault : Option StoreError := none
  deriving DecidableEq, Repr

structure ScriptedStore where
  store : Store := {}
  turns : Nat → Turn

variable [ScanOrder]

namespace ScriptedStore

def perform (_ : Int64) (call : StoreCall) (s : ScriptedStore) :
    Except StoreError call.Reply × ScriptedStore :=
  let turns (n : Nat) := s.turns (n + 1)
  match (s.turns 0).fault with
  | some error => (.error error, { s with turns })
  | none =>
    let (reply, store) := s.store.perform (s.turns 0).now call
    (reply, { store, turns })

def backend : Backend ScriptedStore := ⟨perform⟩

def steady (clock : Nat → Int64) : ScriptedStore := { turns := fun n => { now := clock n } }

def Faultless (s : ScriptedStore) : Prop := ∀ n, (s.turns n).fault = none

omit [ScanOrder] in
theorem faultless_steady (clock : Nat → Int64) : (steady clock).Faultless := fun _ => rfl

end ScriptedStore

/-- How a store call may be answered, and what store it may leave. -/
abbrev Conduct := (call : StoreCall) → Store → Except StoreError call.Reply → Store → Prop

namespace Conduct

def working : Conduct := fun call store reply left =>
  ∃ now, store.perform now call = (reply, left)

def failing : Conduct := fun call store reply left =>
  working call store reply left ∨ (∃ error, reply = .error error) ∧ left = store

end Conduct

theorem Store.perform_error {now : Int64} {call : StoreCall} {store left : Store}
    {error : StoreError} (h : store.perform now call = (.error error, left)) :
    error = .notFound ∧ left = store := by
  cases call with
  | takeTop =>
    simp only [Store.perform] at h
    split at h
    · simp at h
    · simp only [Prod.mk.injEq, Except.error.injEq] at h
      exact ⟨h.1.symm, h.2.symm⟩
  | leased id =>
    simp only [Store.perform] at h
    split at h
    · simp at h
    · simp only [Prod.mk.injEq, Except.error.injEq] at h
      exact ⟨h.1.symm, h.2.symm⟩
  | _ => simp [Store.perform] at h

namespace ScriptedStore

theorem perform_failing (now : Int64) (call : StoreCall) (s : ScriptedStore) :
    Conduct.failing call s.store (s.perform now call).1 (s.perform now call).2.store := by
  unfold perform
  split
  · next error _ => exact .inr ⟨⟨error, rfl⟩, rfl⟩
  · exact .inl ⟨(s.turns 0).now, rfl⟩

theorem store_of_error {now : Int64} {call : StoreCall} {s left : ScriptedStore}
    {error : StoreError} (h : s.perform now call = (.error error, left)) :
    left.store = s.store := by
  have hp := s.perform_failing now call
  rw [h] at hp
  rcases hp with ⟨t, ht⟩ | ⟨-, hs⟩
  · exact (Store.perform_error ht).2
  · exact hs

theorem perform_working (now : Int64) (call : StoreCall) {s : ScriptedStore} (h : s.Faultless) :
    Conduct.working call s.store (s.perform now call).1 (s.perform now call).2.store ∧
      (s.perform now call).2.Faultless := by
  have hturn := h 0
  unfold perform
  split
  · next error he => simp [hturn] at he
  · exact ⟨⟨(s.turns 0).now, rfl⟩, fun n => h (n + 1)⟩

/-- A call repeated after failures conducts itself like a single one. -/
theorem runFrom_failing (now : Int64) (call : StoreCall) (policy : RetryPolicy)
    (left attempt : Nat) (s : ScriptedStore) :
    let run := policy.runFrom (perform now call) left attempt s
    Conduct.failing call s.store run.result run.state.store := by
  induction left generalizing attempt s with
  | zero =>
    have hp := s.perform_failing now call
    unfold RetryPolicy.runFrom
    split
    · next he => simpa only [he] using hp
    · next he => simpa only [he] using hp
    · next he => exact .inr ⟨⟨_, rfl⟩, store_of_error he⟩
  | succ left ih =>
    have hp := s.perform_failing now call
    unfold RetryPolicy.runFrom
    split
    · next he => simpa only [he] using hp
    · next he => simpa only [he] using hp
    · next error s' _ he => simpa only [store_of_error he] using ih (attempt + 1) s'

theorem runFrom_working (now : Int64) (call : StoreCall) (policy : RetryPolicy)
    (left attempt : Nat) {s : ScriptedStore} (h : s.Faultless) :
    let run := policy.runFrom (perform now call) left attempt s
    Conduct.working call s.store run.result run.state.store ∧ run.state.Faultless := by
  have hp := perform_working now call h
  unfold RetryPolicy.runFrom
  split
  · next he => simpa only [he] using hp
  · next he => simpa only [he] using hp
  · next error s' hne he =>
    rw [he] at hp
    obtain ⟨⟨t, ht⟩, -⟩ := hp
    exact absurd (Store.perform_error ht).1 hne

end ScriptedStore
end CrawlCluster
