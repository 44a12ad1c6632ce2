import CrawlCluster.Store.Call

/-!
Asking again after a failure. A failed attempt is repeated after a delay that doubles each time,
until it succeeds, reports that there is nothing to find, or the attempts run out.
-/

set_option autoImplicit false

namespace CrawlCluster

open Clock (Span)

structure RetryPolicy where
  /-- Attempts after the first. -/
  maxRetries : Nat := 3
  baseDelay : Span := Span.ofSeconds 1
  deriving DecidableEq, Repr

namespace RetryPolicy

/-- 2^n, but never above the largest 32-bit number. -/
def doublings (n : Nat) : Nat := if n < 32 then 1 <<< n else UInt32.size - 1

def delay (policy : RetryPolicy) (attempt : Nat) : Span :=
  policy.baseDelay.times (doublings attempt)

/-- How a run of attempts ended, what they left behind, and the delays asked for between them. -/
structure Run (σ α : Type) where
  result : Except StoreError α
  state : σ
  delays : List Span := []

variable {σ α : Type}

def Run.attempts (run : Run σ α) : Nat := run.delays.length + 1

/-- Attempts numbered from `attempt`, with `left` retries left. -/
def runFrom (policy : RetryPolicy) (op : σ → Except StoreError α × σ) :
    (left attempt : Nat) → σ → Run σ α
  | left, attempt, state =>
    match op state with
    | (.ok value, state) => { result := .ok value, state }
    | (.error .notFound, state) => { result := .error .notFound, state }
    | (.error error, state) =>
      match left with
      | 0 => { result := .error (.unreachable error.message), state }
      | left + 1 =>
        let run := runFrom policy op left (attempt + 1) state
        { run with delays := policy.delay attempt :: run.delays }

def run (policy : RetryPolicy) (op : σ → Except StoreError α × σ) (state : σ) : Run σ α :=
  runFrom policy op policy.maxRetries 0 state

end RetryPolicy
end CrawlCluster
