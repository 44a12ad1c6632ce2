import CrawlCluster.Proofs.Coordinator.Masking

set_option autoImplicit false

namespace CrawlCluster

namespace ScriptedStore

/-- What a call has come to that is given up after so many failures and one more. -/
structure GivesUp (call : StoreCall) (left hits : Nat) (s : ScriptedStore)
    (run : RetryPolicy.Run ScriptedStore call.Reply) : Prop where
  result : ∃ error, run.result = .error error
  state : run.state = { s with turns := fun n => s.turns (n + (hits + 1)) }
  delays : run.delays.length = hits
  last : ∃ error, (s.turns hits).fault = some error ∧ (error = .notFound ∨ hits = left)

variable [ScanOrder]

def Ends (call : StoreCall) (left : Nat) (s : ScriptedStore)
    (run : RetryPolicy.Run ScriptedStore call.Reply) : Prop :=
  ∃ hits, (∀ n < hits, ∃ error, (s.turns n).fault = some error) ∧
    ((∃ t, s.turns hits = { now := t } ∧ Outlasts call hits t s run) ∨
      GivesUp call left hits s run)

variable {call : StoreCall} {s : ScriptedStore} {error : StoreError}

theorem perform_fault (now : Int64) (hfault : (s.turns 0).fault = some error) :
    s.perform now call = (.error error, { s with turns := fun n => s.turns (n + 1) }) := by
  simp [perform, hfault]

theorem ends_carried (policy : RetryPolicy) (now : Int64) (left attempt : Nat)
    (hfault : (s.turns 0).fault = none) :
    Ends call left s (policy.runFrom (perform now call) left attempt s) := by
  have hcarried : s.turns 0 = { now := (s.turns 0).now } := by rw [← hfault]
  exact ⟨0, by simp, .inl ⟨_, hcarried, runFrom_carried policy now call left attempt hcarried⟩⟩

/-- A call that is repeated ends as it ends from then on. -/
theorem Ends.repeated {left : Nat} {run : RetryPolicy.Run ScriptedStore call.Reply}
    (h : Ends call left { s with turns := fun n => s.turns (n + 1) } run)
    (hfault : (s.turns 0).fault = some error) (delay : Clock.Span) :
    Ends call (left + 1) s { run with delays := delay :: run.delays } := by
  obtain ⟨hits, hfails, hends⟩ := h
  refine ⟨hits + 1, ?_, ?_⟩
  · intro n hn
    cases n with
    | zero => exact ⟨error, hfault⟩
    | succ n => exact hfails n (Nat.lt_of_succ_lt_succ hn)
  · rcases hends with ⟨t, hcarried, h⟩ | h
    · exact .inl ⟨t, hcarried, h.result, h.state, congrArg Nat.succ h.delays⟩
    · obtain ⟨last, hlast, hwhy⟩ := h.last
      exact .inr ⟨h.result, h.state, congrArg Nat.succ h.delays, last, hlast,
        hwhy.imp id (congrArg Nat.succ)⟩

theorem runFrom_ends (policy : RetryPolicy) (now : Int64) (call : StoreCall) (left attempt : Nat)
    (s : ScriptedStore) :
    Ends call left s (policy.runFrom (perform now call) left attempt s) := by
  induction left generalizing attempt s with
  | zero =>
    cases hfault : (s.turns 0).fault with
    | none => exact ends_carried policy now 0 attempt hfault
    | some error =>
      refine ⟨0, by simp, .inr ?_⟩
      rw [RetryPolicy.runFrom, perform_fault now hfault]
      cases error <;> exact ⟨⟨_, rfl⟩, rfl, rfl, _, hfault, .inr rfl⟩
  | succ left ih =>
    cases hfault : (s.turns 0).fault with
    | none => exact ends_carried policy now (left + 1) attempt hfault
    | some error =>
      rw [RetryPolicy.runFrom, perform_fault now hfault]
      cases error with
      | notFound => exact ⟨0, by simp, .inr ⟨⟨_, rfl⟩, rfl, rfl, _, hfault, .inl rfl⟩⟩
      | transient text => exact (ih _ _).repeated hfault _
      | unreachable text => exact (ih _ _).repeated hfault _

end ScriptedStore

/-- An attempt at a store call of some kind, with the turn it took. -/
structure Attempt where
  kind : StoreCall.Kind
  turn : Turn
  deriving DecidableEq, Repr

namespace Attempt

def Failed (kind : StoreCall.Kind) (a : Attempt) : Prop := a.kind = kind ∧ a.turn.fault ≠ none

instance (kind : StoreCall.Kind) (a : Attempt) : Decidable (a.Failed kind) :=
  inferInstanceAs (Decidable (_ ∧ _))

def carriedOut (kind : StoreCall.Kind) (attempts : List Attempt) : List Int64 :=
  (attempts.filter fun a => a.kind == kind && a.turn.fault.isNone).map (·.turn.now)

theorem carriedOut_append (kind : StoreCall.Kind) (attempts more : List Attempt) :
    carriedOut kind (attempts ++ more) = carriedOut kind attempts ++ carriedOut kind more := by
  simp [carriedOut]

theorem carriedOut_failed {kind : StoreCall.Kind} (other : StoreCall.Kind)
    {attempts : List Attempt} (h : ∀ a ∈ attempts, a.Failed kind) :
    carriedOut other attempts = [] := by
  refine List.map_eq_nil_iff.2 (List.filter_eq_nil_iff.2 fun a ha hcarried => ?_)
  exact (h a ha).2 (by simpa using (Bool.and_eq_true_iff.1 hcarried).2)

theorem carriedOut_single (kind : StoreCall.Kind) (t : Int64) :
    carriedOut kind [⟨kind, { now := t }⟩] = [t] := by
  simp [carriedOut]

/-- The last call was of the kind, and failed as often as it may be repeated and once more. -/
def RanOut (retries : Nat) (kind : StoreCall.Kind) (attempts : List Attempt) : Prop :=
  retries < attempts.length ∧
    ∀ a ∈ attempts.drop (attempts.length - (retries + 1)), a.Failed kind

instance (retries : Nat) (kind : StoreCall.Kind) (attempts : List Attempt) :
    Decidable (RanOut retries kind attempts) := inferInstanceAs (Decidable (_ ∧ _))

def Missed (kind : StoreCall.Kind) (attempts : List Attempt) : Prop :=
  attempts.getLast?.map (fun a => (a.kind, a.turn.fault)) = some (kind, some .notFound)

instance (kind : StoreCall.Kind) (attempts : List Attempt) : Decidable (Missed kind attempts) :=
  inferInstanceAs (Decidable (_ = _))

def GaveUp (retries : Nat) (kind : StoreCall.Kind) (attempts : List Attempt) : Prop :=
  RanOut retries kind attempts ∨ Missed kind attempts

instance (retries : Nat) (kind : StoreCall.Kind) (attempts : List Attempt) :
    Decidable (GaveUp retries kind attempts) := inferInstanceAs (Decidable (_ ∨ _))

variable {retries : Nat} {kind : StoreCall.Kind} {attempts : List Attempt}

theorem RanOut.append (h : RanOut retries kind attempts) (before : List Attempt) :
    RanOut retries kind (before ++ attempts) := by
  obtain ⟨hlength, hfailed⟩ := h
  refine ⟨by rw [List.length_append]; omega, ?_⟩
  have hdrop : (before ++ attempts).drop ((before ++ attempts).length - (retries + 1)) =
      attempts.drop (attempts.length - (retries + 1)) := by
    have hskip : (before ++ attempts).length - (retries + 1) =
        before.length + (attempts.length - (retries + 1)) := by
      rw [List.length_append]
      omega
    rw [hskip, List.drop_length_add_append]
  rw [hdrop]
  exact hfailed

theorem GaveUp.append (h : GaveUp retries kind attempts) (before : List Attempt) :
    GaveUp retries kind (before ++ attempts) := by
  rcases h with h | h
  · exact .inl (h.append before)
  · obtain ⟨a, hlast, hmissed⟩ := Option.map_eq_some_iff.1 h
    exact .inr (Option.map_eq_some_iff.2 ⟨a, by simp [List.getLast?_append, hlast], hmissed⟩)

/-- Nothing was given up if the last attempt did not fail, or was at something else. -/
theorem not_gaveUp {a : Attempt} (hlast : attempts.getLast? = some a) (ha : ¬a.Failed kind) :
    ¬GaveUp retries kind attempts := by
  rintro (⟨hlength, hfailed⟩ | hmissed)
  · refine ha (hfailed a (List.mem_of_getLast? ?_))
    rw [List.getLast?_drop, if_neg (by omega), hlast]
  · rw [Missed, hlast, Option.map_some, Option.some_inj, Prod.mk.injEq] at hmissed
    exact ha ⟨hmissed.1, by simp [hmissed.2]⟩

theorem GaveUp.ne_nil (h : GaveUp retries kind attempts) : attempts ≠ [] := by
  rintro rfl
  rcases h with ⟨hlength, -⟩ | hmissed
  · simp at hlength
  · simp [Missed] at hmissed

theorem GaveUp.exclusive {other : StoreCall.Kind} (h : GaveUp retries kind attempts)
    (hfailed : ∀ a ∈ attempts, a.Failed kind) (hne : kind ≠ other) (before : List Attempt) :
    ¬GaveUp retries other (before ++ attempts) := by
  have hlast : (before ++ attempts).getLast? = some (attempts.getLast h.ne_nil) := by
    rw [List.getLast?_append, List.getLast?_eq_some_getLast h.ne_nil, Option.some_or]
  refine not_gaveUp hlast fun hother => hne ?_
  exact (hfailed _ (List.getLast_mem h.ne_nil)).1.symm.trans hother.1

end Attempt

namespace Coordinator

open Attempt (GaveUp)

section Log

/-- The attempts logged on the way from one state to a later one. -/
def made (st left : State ScriptedStore) : List Attempt :=
  (left.calls.drop st.calls.length).mapIdx fun n kind => ⟨kind, st.store.turns n⟩

structure Later (st left : State ScriptedStore) : Prop where
  calls : left.calls = st.calls ++ (made st left).map (·.kind)
  turns : ∀ n, left.store.turns n = st.store.turns (n + (made st left).length)

variable {st mid left : State ScriptedStore}

theorem made_of_calls {kinds : List StoreCall.Kind} (h : left.calls = st.calls ++ kinds) :
    made st left = kinds.mapIdx fun n kind => ⟨kind, st.store.turns n⟩ := by
  rw [made, h, List.drop_left]

theorem Later.of_calls {kinds : List StoreCall.Kind} (hcalls : left.calls = st.calls ++ kinds)
    (hturns : ∀ n, left.store.turns n = st.store.turns (n + kinds.length)) : Later st left := by
  have hmade := made_of_calls hcalls
  refine ⟨?_, ?_⟩
  · have hkinds : (kinds.mapIdx fun n kind => (⟨kind, st.store.turns n⟩ : Attempt)).map (·.kind) =
        kinds := by
      simp [List.mapIdx_eq_zipIdx_map, Function.comp_def]
    rw [hmade, hkinds, hcalls]
  · rw [hmade, List.length_mapIdx]
    exact hturns

theorem Later.refl (st : State ScriptedStore) : Later st st :=
  .of_calls (List.append_nil _).symm fun _ => rfl

theorem made_self (st : State ScriptedStore) : made st st = [] :=
  made_of_calls (List.append_nil _).symm

theorem Later.made_trans (h : Later st mid) (h' : Later mid left) :
    made st left = made st mid ++ made mid left := by
  have hcalls : left.calls =
      st.calls ++ ((made st mid).map (·.kind) ++ (made mid left).map (·.kind)) := by
    rw [h'.calls, h.calls, List.append_assoc]
  rw [made_of_calls hcalls, List.mapIdx_append, ← made_of_calls h.calls]
  refine congrArg (made st mid ++ ·) (Eq.trans ?_ (made_of_calls h'.calls).symm)
  simp [h.turns]

theorem Later.trans (h : Later st mid) (h' : Later mid left) : Later st left := by
  have hmade := h.made_trans h'
  refine ⟨?_, ?_⟩
  · rw [hmade, List.map_append, ← List.append_assoc, ← h.calls, ← h'.calls]
  · intro n
    rw [h'.turns, h.turns, hmade, List.length_append]
    congr 1
    omega

variable [ScanOrder]

theorem Later.action (s : Settings) (now : Int64) (action : Action) (st : State ScriptedStore) :
    Later st (action.run (s.scriptedSite now) st).2 := by
  cases action with
  | ask call =>
    let run := s.retry.run (ScriptedStore.perform now call) st.store
    have hlater {hits : Nat} (hdelays : run.delays.length = hits)
        (hturns : run.state.turns = fun n => st.store.turns (n + (hits + 1))) :
        Later st (st.ask (s.scriptedSite now) call).2 := by
      have hcalls : (st.ask (s.scriptedSite now) call).2.calls =
          st.calls ++ List.replicate (hits + 1) call.kind :=
        congrArg (fun n => st.calls ++ List.replicate (n + 1) call.kind) hdelays
      refine .of_calls hcalls fun n => ?_
      rw [List.length_replicate]
      exact congrFun hturns n
    obtain ⟨hits, -, ⟨t, -, h⟩ | h⟩ :=
      ScriptedStore.runFrom_ends s.retry now call s.retry.maxRetries 0 st.store
    · exact hlater h.delays (congrArg ScriptedStore.turns h.state)
    · exact hlater h.delays (congrArg ScriptedStore.turns h.state)
  | _ => exact .of_calls (List.append_nil _).symm fun _ => rfl

end Log

/-- What a store call comes to: it is carried out after some failures, or given up with nothing
done. -/
inductive Asked [ScanOrder] (retries : Nat) (call : StoreCall) (st : State ScriptedStore) :
    Except StoreError call.Reply → State ScriptedStore → Prop where
  | carried (t : Int64) {failures : List Attempt} {left : State ScriptedStore}
    (hlater : Later st left)
    (hbooks : left.plain.books =
      { st.plain.books with store := (st.store.store.perform t call).2 })
    (hfailures : ∀ a ∈ failures, a.Failed call.kind)
    (hmade : made st left = failures ++ [⟨call.kind, { now := t }⟩]) :
    Asked retries call st (st.store.store.perform t call).1 left
  | givenUp (error : StoreError) {left : State ScriptedStore} (hlater : Later st left)
    (hbooks : left.plain.books = st.plain.books)
    (hfailures : ∀ a ∈ made st left, a.Failed call.kind)
    (hgaveUp : GaveUp retries call.kind (made st left)) :
    Asked retries call st (.error error) left

theorem made_repeated {st left : State ScriptedStore} {kind : StoreCall.Kind} {hits : Nat}
    (h : left.calls = st.calls ++ List.replicate (hits + 1) kind) :
    made st left = (List.range (hits + 1)).map fun n => ⟨kind, st.store.turns n⟩ := by
  rw [made_of_calls h]
  exact List.ext_getElem (by simp) (by simp)

theorem failed_of_faults {kind : StoreCall.Kind} {turns : Nat → Turn} {hits : Nat}
    (h : ∀ n < hits, ∃ error, (turns n).fault = some error) :
    ∀ a ∈ (List.range hits).map fun n => (⟨kind, turns n⟩ : Attempt), a.Failed kind := by
  intro a ha
  obtain ⟨n, hn, rfl⟩ := List.mem_map.1 ha
  obtain ⟨error, hfault⟩ := h n (List.mem_range.1 hn)
  exact ⟨rfl, by simp [hfault]⟩

theorem ask_asked [ScanOrder] (s : Settings) (now : Int64) (call : StoreCall)
    (st : State ScriptedStore) :
    let asked := st.ask (s.scriptedSite now) call
    Asked s.retry.maxRetries call st asked.1 asked.2 := by
  intro asked
  have hlater : Later st asked.2 := .action s now (.ask call) st
  obtain ⟨hits, hfails, ⟨t, hcarried, h⟩ | h⟩ :=
    ScriptedStore.runFrom_ends s.retry now call s.retry.maxRetries 0 st.store
  · obtain ⟨slept, -, hask⟩ := ask_outlasts h
    have hasked : asked = _ := hask
    rw [hasked] at hlater ⊢
    refine .carried t hlater rfl (failed_of_faults hfails) ?_
    rw [made_repeated rfl, List.range_succ, List.map_append, List.map_singleton, hcarried]
  · obtain ⟨error, hresult⟩ := h.result
    obtain ⟨last, hlast, hwhy⟩ := h.last
    have hcalls : asked.2.calls = st.calls ++ List.replicate (hits + 1) call.kind :=
      congrArg (fun n => st.calls ++ List.replicate (n + 1) call.kind) h.delays
    have hmade := made_repeated hcalls
    have hfailed : ∀ a ∈ made st asked.2, a.Failed call.kind := by
      rw [hmade]
      refine failed_of_faults fun n hn => ?_
      rcases Nat.lt_succ_iff_lt_or_eq.1 hn with hn | rfl
      · exact hfails n hn
      · exact ⟨last, hlast⟩
    have hreply : asked.1 = .error error := hresult
    have hbooks : asked.2.plain.books = st.plain.books :=
      congrArg (fun store : ScriptedStore => { st.plain.books with store := store.store }) h.state
    rw [hreply]
    refine .givenUp error hlater hbooks hfailed ?_
    rcases hwhy with rfl | rfl
    · refine .inr ?_
      rw [Attempt.Missed, hmade, List.range_succ, List.map_append, List.map_singleton,
        List.getLast?_concat, Option.map_some, hlast]
    · exact .inl ⟨by simp [hmade], fun a ha => hfailed a (List.mem_of_mem_drop ha)⟩

section Runs

variable [ScanOrder] {α : Type} {s : Settings} {now : Int64} {st : State ScriptedStore}
variable {call : StoreCall}
variable {motive : Except JobError α × State ScriptedStore → Prop}

theorem run_asked {f : Except StoreError call.Reply → Program α}
    (h : ∀ reply left, Asked s.retry.maxRetries call st reply left →
      motive ((f reply).run (s.scriptedSite now) left)) :
    motive ((Program.ask call >>= f).run (s.scriptedSite now) st) := by
  rw [Program.run_ask]
  exact h _ _ (ask_asked s now call st)

theorem run_queried {f : call.Reply → Program α}
    (h : ∀ reply left, Asked s.retry.maxRetries call st reply left →
      motive (match reply with
        | .ok value => (f value).run (s.scriptedSite now) left
        | .error error => (.error (.store error), left))) :
    motive ((Program.query call >>= f).run (s.scriptedSite now) st) := by
  have hasked := h _ _ (ask_asked s now call st)
  have hrun : (Program.query call >>= f).run (s.scriptedSite now) st =
      (Program.orFail .store (st.ask (s.scriptedSite now) call).1 >>= f).run (s.scriptedSite now)
        (st.ask (s.scriptedSite now) call).2 := rfl
  rw [hrun]
  cases hreply : (st.ask (s.scriptedSite now) call).1 <;> rw [hreply] at hasked <;> exact hasked

end Runs

end Coordinator
end CrawlCluster
