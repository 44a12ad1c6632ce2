import CrawlCluster.Proofs.Store.Scripted

set_option autoImplicit false

namespace CrawlCluster

/-- Each of so many calls to come is carried out when `clock` says, after at most `retries`
failures. -/
inductive Masks (retries : Nat) : Nat → (turns : Nat → Turn) → (clock : Nat → Int64) → Prop where
  | none (turns : Nat → Turn) (clock : Nat → Int64) : Masks retries 0 turns clock
  | call {calls hits : Nat} {turns : Nat → Turn} {clock : Nat → Int64} (hhits : hits ≤ retries)
    (hfails : ∀ n < hits, ∃ error, (turns n).fault = some error ∧ error ≠ .notFound)
    (hcarried : turns hits = { now := clock 0 })
    (rest : Masks retries calls (fun n => turns (n + (hits + 1))) fun n => clock (n + 1)) :
    Masks retries (calls + 1) turns clock

namespace ScriptedStore

variable [ScanOrder]

structure Outlasts (call : StoreCall) (hits : Nat) (t : Int64) (s : ScriptedStore)
    (run : RetryPolicy.Run ScriptedStore call.Reply) : Prop where
  result : run.result = (s.store.perform t call).1
  state : run.state =
    { store := (s.store.perform t call).2, turns := fun n => s.turns (n + (hits + 1)) }
  delays : run.delays.length = hits

theorem runFrom_carried (policy : RetryPolicy) (now : Int64) (call : StoreCall)
    (left attempt : Nat) {t : Int64} {s : ScriptedStore} (hcarried : s.turns 0 = { now := t }) :
    Outlasts call 0 t s (policy.runFrom (perform now call) left attempt s) := by
  have hperform : s.perform now call = ((s.store.perform t call).1,
      { store := (s.store.perform t call).2, turns := fun n => s.turns (n + 1) }) := by
    simp [perform, hcarried]
  unfold RetryPolicy.runFrom
  split
  · next value left' he =>
    obtain ⟨hresult, hleft⟩ := Prod.mk.inj (hperform.symm.trans he)
    exact ⟨hresult.symm, hleft.symm, rfl⟩
  · next left' he =>
    obtain ⟨hresult, hleft⟩ := Prod.mk.inj (hperform.symm.trans he)
    exact ⟨hresult.symm, hleft.symm, rfl⟩
  · next error left' hne he =>
    have hresult := (Prod.mk.inj (hperform.symm.trans he)).1
    exact absurd (Store.perform_error (Prod.ext hresult rfl)).1 hne

theorem runFrom_outlasts (policy : RetryPolicy) (now : Int64) (call : StoreCall)
    {left hits : Nat} (attempt : Nat) {t : Int64} {s : ScriptedStore} (hhits : hits ≤ left)
    (hfails : ∀ n < hits, ∃ error, (s.turns n).fault = some error ∧ error ≠ .notFound)
    (hcarried : s.turns hits = { now := t }) :
    Outlasts call hits t s (policy.runFrom (perform now call) left attempt s) := by
  induction hits generalizing left attempt s with
  | zero => exact runFrom_carried policy now call left attempt hcarried
  | succ hits ih =>
    obtain ⟨error, hfault, hne⟩ := hfails 0 (Nat.succ_pos hits)
    obtain ⟨left, rfl⟩ : ∃ rest, left = rest + 1 := ⟨left - 1, by omega⟩
    have hperform : s.perform now call =
        (.error error, { s with turns := fun n => s.turns (n + 1) }) := by
      simp [perform, hfault]
    have hlater : ∀ n < hits, ∃ error,
        (s.turns (n + 1)).fault = some error ∧ error ≠ .notFound := fun n hn =>
      hfails (n + 1) (Nat.succ_lt_succ hn)
    have hrest : Outlasts call hits t { s with turns := fun n => s.turns (n + 1) } _ :=
      ih (attempt + 1) (Nat.le_of_succ_le_succ hhits) hlater hcarried
    rw [RetryPolicy.runFrom, hperform]
    cases error with
    | notFound => exact absurd rfl hne
    | transient text => exact ⟨hrest.result, hrest.state, congrArg Nat.succ hrest.delays⟩
    | unreachable text => exact ⟨hrest.result, hrest.state, congrArg Nat.succ hrest.delays⟩

end ScriptedStore
end CrawlCluster
