import CrawlCluster.Retry
import Mathlib.Algebra.Group.Nat.Defs
import Mathlib.Order.Monotone.Basic

set_option autoImplicit false

namespace CrawlCluster.RetryPolicy

open Clock (Span)

theorem doublings_eq (n : Nat) : doublings n = min (2 ^ n) (2 ^ 32 - 1) := by
  rw [doublings]
  split
  · next hn =>
    have hle : 2 ^ n ≤ 2 ^ 31 := Nat.pow_le_pow_right (by decide) (by omega)
    rw [Nat.one_shiftLeft]
    omega
  · next hn =>
    have hle : 2 ^ 32 ≤ 2 ^ n := Nat.pow_le_pow_right (by decide) (by omega)
    rw [UInt32.size]
    omega

theorem doublings_mono : Monotone doublings := by
  intro m n h
  have hle : 2 ^ m ≤ 2 ^ n := Nat.pow_le_pow_right (by decide) h
  rw [doublings_eq, doublings_eq]
  omega

/-- Delays never shrink, whether the doubling or the product has reached its end or not. -/
theorem delay_mono (policy : RetryPolicy) : Monotone policy.delay := by
  intro m n h
  have hproduct : policy.baseDelay * doublings m ≤ policy.baseDelay * doublings n :=
    Nat.mul_le_mul_left _ (doublings_mono h)
  exact Nat.le_min.2 ⟨(Nat.min_le_left ..).trans hproduct, Nat.min_le_right ..⟩

variable {α : Type}

/-- What there is no point in asking again after. -/
def Settles : Except StoreError α → Prop
  | .ok _ | .error .notFound => True
  | .error (.transient _) | .error (.unreachable _) => False

instance : (outcome : Except StoreError α) → Decidable (Settles outcome)
  | .ok _ => .isTrue trivial
  | .error .notFound => .isTrue trivial
  | .error (.transient _) => .isFalse id
  | .error (.unreachable _) => .isFalse id

def replay (outcomes : Nat → Except StoreError α) (calls : Nat) : Except StoreError α × Nat :=
  (outcomes calls, calls + 1)

def Run.behind (delays : List Span) (run : Run Nat α) : Run Nat α :=
  { run with delays := delays ++ run.delays }

variable (policy : RetryPolicy) {outcomes : Nat → Except StoreError α}

theorem runFrom_settles {k : Nat} (h : Settles (outcomes k)) (left : Nat) :
    policy.runFrom (replay outcomes) left k k = { result := outcomes k, state := k + 1 } := by
  unfold runFrom replay
  cases houtcome : outcomes k with
  | ok value => rfl
  | error error =>
    cases error with
    | notFound => rfl
    | transient text => rw [houtcome] at h; exact h.elim
    | unreachable text => rw [houtcome] at h; exact h.elim

theorem passing_of_not_settles {outcome : Except StoreError α} (h : ¬ Settles outcome) :
    ∃ text, outcome = .error (.transient text) ∨ outcome = .error (.unreachable text) := by
  cases outcome with
  | ok value => exact absurd trivial h
  | error error =>
    cases error with
    | notFound => exact absurd trivial h
    | transient text => exact ⟨text, .inl rfl⟩
    | unreachable text => exact ⟨text, .inr rfl⟩

theorem runFrom_exhausted {k : Nat} (h : ¬ Settles (outcomes k)) :
    ∃ error, outcomes k = .error error ∧
      policy.runFrom (replay outcomes) 0 k k =
        { result := .error (.unreachable error.message), state := k + 1 } := by
  unfold runFrom replay
  obtain ⟨text, htext | htext⟩ := passing_of_not_settles h <;> exact ⟨_, htext, by rw [htext]⟩

theorem runFrom_repeats {k : Nat} (h : ¬ Settles (outcomes k)) (left : Nat) :
    policy.runFrom (replay outcomes) (left + 1) k k =
      (policy.runFrom (replay outcomes) left (k + 1) (k + 1)).behind [policy.delay k] := by
  rw [runFrom, replay]
  obtain ⟨text, htext | htext⟩ := passing_of_not_settles h <;>
  · rw [htext]
    rfl

theorem runFrom_failing {k n : Nat} (hfails : ∀ j < n, ¬ Settles (outcomes (k + j))) (left : Nat) :
    policy.runFrom (replay outcomes) (n + left) k k =
      (policy.runFrom (replay outcomes) left (k + n) (k + n)).behind
        ((List.range' k n).map policy.delay) := by
  induction n generalizing k with
  | zero => rw [Nat.zero_add]; rfl
  | succ n ih =>
    have hlater : ∀ j < n, ¬ Settles (outcomes (k + 1 + j)) := fun j hj => by
      rw [Nat.add_right_comm]
      exact hfails (j + 1) (Nat.succ_lt_succ hj)
    have hfirst : ¬ Settles (outcomes k) := hfails 0 n.succ_pos
    rw [Nat.add_right_comm, runFrom_repeats policy hfirst, ih hlater, List.range'_succ,
      List.map_cons, Nat.add_assoc, Nat.add_comm 1 n]
    rfl

theorem runFrom_ne_transient {σ : Type} (op : σ → Except StoreError α × σ) (left attempt : Nat)
    (state : σ) (text : String) :
    (policy.runFrom op left attempt state).result ≠ .error (.transient text) := by
  induction left generalizing attempt state with
  | zero => unfold runFrom; split <;> simp
  | succ left ih =>
    unfold runFrom
    split
    · simp
    · simp
    · exact ih (attempt + 1) _

/-- A run that asked again so often: the calls it made, and what it waited before each but the
first. -/
structure Run.Repeats (retries : Nat) (run : Run Nat α) : Prop where
  calls : run.state = retries + 1
  delays : run.delays = (List.range retries).map policy.delay

def Run.GivesUp (outcomes : Nat → Except StoreError α) (run : Run Nat α) : Prop :=
  ∃ error, outcomes policy.maxRetries = .error error ∧
    run.result = .error (.unreachable error.message)

theorem run_settles {i : Nat} (hi : i ≤ policy.maxRetries)
    (hfails : ∀ j < i, ¬ Settles (outcomes j)) (h : Settles (outcomes i)) :
    (policy.run (replay outcomes) 0).Repeats policy i ∧
      (policy.run (replay outcomes) 0).result = outcomes i := by
  obtain ⟨left, hleft⟩ := Nat.exists_eq_add_of_le hi
  have hrun := runFrom_failing policy (k := 0) (n := i) (by simpa using hfails) left
  rw [Nat.zero_add, runFrom_settles policy h, ← hleft, ← List.range_eq_range'] at hrun
  rw [run, hrun]
  exact ⟨⟨rfl, List.append_nil _⟩, rfl⟩

theorem run_givesUp (hfails : ∀ j ≤ policy.maxRetries, ¬ Settles (outcomes j)) :
    (policy.run (replay outcomes) 0).Repeats policy policy.maxRetries ∧
      (policy.run (replay outcomes) 0).GivesUp policy outcomes := by
  have hrun := runFrom_failing policy (k := 0) (n := policy.maxRetries)
    (fun j hj => by simpa using hfails j (Nat.le_of_lt hj)) 0
  obtain ⟨error, houtcome, hlast⟩ := runFrom_exhausted policy (hfails _ (Nat.le_refl _))
  rw [Nat.zero_add, hlast, Nat.add_zero, ← List.range_eq_range'] at hrun
  rw [run, hrun]
  exact ⟨⟨rfl, List.append_nil _⟩, error, houtcome, rfl⟩

/-- An operation is called up to its first outcome that settles the matter, but not more often than
the policy allows, with delays in between that double up to their ends and never shrink. That
outcome is the result, and if it was not reached, that the store cannot be reached, in the words of
the last error. -/
theorem retrying_exact (policy : RetryPolicy) (outcomes : Nat → Except StoreError α) :
    let run := policy.run (replay outcomes) 0
    (∀ i, Settles (outcomes i) → (∀ j < i, ¬ Settles (outcomes j)) →
        run.Repeats policy (min i policy.maxRetries) ∧
        (i ≤ policy.maxRetries → run.result = outcomes i) ∧
        (policy.maxRetries < i → run.GivesUp policy outcomes)) ∧
      ((∀ j, ¬ Settles (outcomes j)) →
        run.Repeats policy policy.maxRetries ∧ run.GivesUp policy outcomes) ∧
      (∀ text, run.result ≠ .error (.transient text)) ∧
      (∀ k, policy.delay k =
        min (policy.baseDelay * min (2 ^ k) (2 ^ 32 - 1)) (2 ^ 64 * 1000000000 - 1)) ∧
      Monotone policy.delay := by
  intro run
  refine ⟨fun i h hfails => ?_, fun hfails => run_givesUp policy fun j _ => hfails j,
    runFrom_ne_transient policy _ _ _ _, fun k => ?_, policy.delay_mono⟩
  · rcases Nat.lt_or_ge policy.maxRetries i with hi | hi
    · obtain ⟨hrepeats, hgives⟩ := run_givesUp policy fun j hj => hfails j (by omega)
      rw [Nat.min_eq_right (Nat.le_of_lt hi)]
      exact ⟨hrepeats, fun hle => absurd hle (Nat.not_le.2 hi), fun _ => hgives⟩
    · obtain ⟨hrepeats, hresult⟩ := run_settles policy hi hfails h
      rw [Nat.min_eq_left hi]
      exact ⟨hrepeats, fun _ => hresult, fun hlt => absurd hi (Nat.not_le.2 hlt)⟩
  · rw [delay, doublings_eq]
    rfl

def flaky (calls : Nat) : Except StoreError Unit :=
  if calls < 3 then .error (.transient "down") else .error .notFound

/-- The budget is spent one call too early, and no delay can be longer than the first. -/
theorem retrying_exact_flaky :
    let policy : RetryPolicy := { maxRetries := 2, baseDelay := Span.longest }
    let run := policy.run (replay flaky) 0
    Settles (flaky 3) ∧ (∀ j < 3, ¬ Settles (flaky j)) ∧ run.state = 3 ∧
      run.delays = [Span.longest, Span.longest] ∧
      run.result = .error (.unreachable "transient store failure: down") := by
  intro policy run
  have hsettles : Settles (flaky 3) := by decide
  have hfails : ∀ j < 3, ¬ Settles (flaky j) := by decide
  obtain ⟨hrepeats, -, hgives⟩ := (retrying_exact policy flaky).1 3 hsettles hfails
  obtain ⟨error, herror, hresult⟩ := hgives (by decide)
  cases herror
  have hdelays : (List.range (min 3 2)).map policy.delay = [Span.longest, Span.longest] := by
    decide +kernel
  exact ⟨hsettles, hfails, hrepeats.calls, hrepeats.delays.trans hdelays, hresult⟩

end CrawlCluster.RetryPolicy
