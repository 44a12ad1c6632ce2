import CrawlCluster.Proofs.Coordinator.Deciding

set_option autoImplicit false

namespace CrawlCluster.Coordinator

open Program

variable {σ : Type}

/-- What a coordinator was asked and answered so far, and its state, over any store. -/
structure Shift (σ : Type) where
  past : List Entry := []
  state : State σ

namespace Shift

variable (s : Settings) (backend : Backend σ)

def site (now : Int64) : Site σ := { backend, retry := s.retry, now }

def ask (c : Shift σ) (step : Step) : Except JobError Answer × State σ :=
  (step.operation.program s).run (site s backend step.now) c.state

def take (c : Shift σ) (step : Step) : Shift σ :=
  { past := c.past ++ [⟨step.operation, (c.ask s backend step).1⟩]
    state := (c.ask s backend step).2 }

def run (store : σ) (steps : List Step) : Shift σ :=
  steps.foldl (take s backend) { state := { store } }

theorem run_snoc (store : σ) (steps : List Step) (step : Step) :
    run s backend store (steps ++ [step]) = (run s backend store steps).take s backend step :=
  List.foldl_append ..

end Shift

/-- The directive issued last, and the answers since. -/
structure LastIssued (past : List Entry) (directive : Directive) (since : List Entry) : Prop where
  issue : ∃ before entry, entry.issued? = some directive ∧ past = before ++ entry :: since
  silence : ∀ entry ∈ since, entry.issued? = none

/-- The directive issued last, if no harvest has used it up since. -/
def StillAwaited (s : Settings) (past : List Entry) (directive : Directive) : Prop :=
  ∃ since, LastIssued past directive since ∧ ∀ entry ∈ since, entry.spent? s = none

def Entry.Spends (s : Settings) (directive : Directive) (entry : Entry) : Prop :=
  ∃ borne, entry.spent? s = some borne ∧ borne.token = directive.token

/-- What the answers so far tell of the directive awaited. -/
inductive Awaits (s : Settings) (past : List Entry) : Option Directive → Prop where
  | waiting {directive : Directive} (h : StillAwaited s past directive) :
      Awaits s past (some directive)
  | never (hissued : issued past = []) : Awaits s past none
  | spent {directive : Directive} {since : List Entry} (hlast : LastIssued past directive since)
      (hspent : ∃ entry ∈ since, entry.Spends s directive) : Awaits s past none

namespace LastIssued

variable {past since : List Entry} {directive : Directive} {entry : Entry}

theorem snoc (h : LastIssued past directive since) (hissued : entry.issued? = none) :
    LastIssued (past ++ [entry]) directive (since ++ [entry]) := by
  obtain ⟨before, issue, hissue, rfl⟩ := h.issue
  refine ⟨⟨before, issue, hissue, by simp⟩, ?_⟩
  intro later hlater
  rcases List.mem_append.1 hlater with hlater | hlater
  · exact h.silence later hlater
  · rw [List.mem_singleton.1 hlater]
    exact hissued

theorem newest (hissued : entry.issued? = some directive) :
    LastIssued (past ++ [entry]) directive [] :=
  ⟨⟨past, entry, hissued, rfl⟩, nofun⟩

end LastIssued

theorem Awaits.step {s : Settings} {past : List Entry} {awaited left : Option Directive}
    {entry : Entry} (h : Awaits s past awaited) (hturns : Turns s awaited entry left) :
    Awaits s (past ++ [entry]) left := by
  cases hturns with
  | none hissued hspent =>
    cases h with
    | waiting hstill =>
      obtain ⟨since, hlast, hunspent⟩ := hstill
      refine .waiting ⟨since ++ [entry], hlast.snoc hissued, ?_⟩
      simpa [or_imp, forall_and, hspent] using hunspent
    | never hnone => exact .never (by simp [hnone, hissued])
    | spent hlast hspent' =>
      obtain ⟨use, huse, hspends⟩ := hspent'
      exact .spent (hlast.snoc hissued) ⟨use, List.mem_append_left _ huse, hspends⟩
  | issue hissued hspent => exact .waiting ⟨[], .newest hissued, nofun⟩
  | spend hissued hspent htoken =>
    cases h with
    | waiting hstill =>
      obtain ⟨since, hlast, -⟩ := hstill
      exact .spent (hlast.snoc hissued) ⟨entry, by simp, _, hspent, by simpa using htoken.symm⟩
    | never => contradiction
    | spent => contradiction

namespace Shift

variable {s : Settings} {backend : Backend σ}

theorem awaits_run (store : σ) (steps : List Step) :
    Awaits s (run s backend store steps).past (run s backend store steps).state.outstanding := by
  induction steps using List.reverseRecOn with
  | nil => exact .never rfl
  | append_singleton steps last ih =>
    rw [run_snoc]
    exact ih.step (turns_operation s (site s backend last.now) _ last.operation)

theorem ask_writing (hwriting : Manner.writing.ShownBy backend) (now : Int64) (call : StoreCall)
    (hcall : Manner.writing.asks call) (st : State σ) :
    Manner.writing.shows call (st.ask (site s backend now) call).1 := by
  obtain ⟨value, hvalue⟩ := hwriting call hcall now st.store
  have hrun : (s.retry.run (backend.perform now call) st.store).result = .ok value := by
    unfold RetryPolicy.run RetryPolicy.runFrom
    split <;> simp_all
  exact ⟨value, hrun⟩

/-- A harvest that is let in is accepted, if what has to be stored of it always is. -/
theorem answered_of_spent (hwriting : Manner.writing.ShownBy backend) (store : σ)
    (steps : List Step) : ∀ entry ∈ (run s backend store steps).past, ∀ directive,
      entry.spent? s = some directive → Answered entry.result := by
  induction steps using List.reverseRecOn with
  | nil => exact nofun
  | append_singleton steps last ih =>
    rw [run_snoc]
    intro entry hentry directive hspent
    rcases List.mem_append.1 hentry with hentry | hentry
    · exact ih entry hentry directive hspent
    · obtain rfl := List.mem_singleton.1 hentry
      obtain ⟨brought, hread, hother⟩ := harvest_of_spent hspent
      let st := (run s backend store steps).state
      have hrun : (last.operation.program s).run (site s backend last.now) st = _ :=
        (Operation.run_of_read hread).trans
          (run_map (site s backend last.now) (acceptHarvest s brought) Answer.text st)
      show Answered ((last.operation.program s).run (site s backend last.now) st).1
      change ((last.operation.program s).run (site s backend last.now) st).1 ≠ _ at hother
      rw [hrun] at hother ⊢
      rcases run_acceptHarvest s (site s backend last.now) st brought with
        ⟨-, hdelivered⟩ | ⟨-, hrefused⟩
      · obtain ⟨answer, hanswer⟩ := (answering_deliver s brought).run (site s backend last.now)
          (ask_writing hwriting last.now) { st with outstanding := none }
        exact ⟨.text answer, by rw [hdelivered, hanswer]; rfl⟩
      · exact absurd (congrArg (Except.map Answer.text ·.1) hrefused) hother

/-- Whatever the clock shows and whatever the store answers, be it wrong about its depth: a request
for a job is put off just for the directive issued last, while no harvest has used it up and the
cooldown lasts. Another directive is issued only if there was none before, or a harvest has used up
the last, or the cooldown is over. A job is handed out only if enough are reported to be queued,
or one at least while the directive issued last is waited for and fresh. Any answer but a directive
leaves the one awaited as it was. A harvest that uses up a directive is accepted, if what has to
be stored of it always is. -/
theorem directives_throttled (s : Settings) (backend : Backend σ) (store : σ) (steps : List Step)
    (now : Int64) :
    let c := run s backend store steps
    let answer := (c.ask s backend ⟨.takeJob, now⟩).1
    let left := (c.ask s backend ⟨.takeJob, now⟩).2
    (∀ directive, answer = .ok (.assignment (.idle directive)) →
      StillAwaited s c.past directive ∧ isFresh s now directive = true) ∧
    (∀ directive, answer = .ok (.assignment (.crawl directive)) →
      issued c.past = [] ∨ ∃ previous since, LastIssued c.past previous since ∧
        ((∃ entry ∈ since, entry.Spends s previous) ∨
          (s.cooldown.millis : Int) < now.toInt - previous.token.toInt)) ∧
    (∀ id url leaseTime timeout,
      answer = .ok (.assignment (.spider id url leaseTime timeout)) →
      ∃ depth, (c.state.ask (site s backend now) .depth).1 = .ok depth ∧
        (s.minQueued ≤ depth ∨ 1 ≤ depth ∧ ∃ directive, StillAwaited s c.past directive ∧
          (Clock.nearest (now.toInt - directive.token.toInt)).toInt ≤ s.cooldown.millis ∧
          (0 ≤ directive.token → now.toInt - directive.token.toInt ≤ s.cooldown.millis))) ∧
    ((∀ directive, answer ≠ .ok (.assignment (.crawl directive))) →
      left.outstanding = c.state.outstanding) ∧
    (Manner.writing.ShownBy backend → ∀ entry ∈ c.past, ∀ directive,
      entry.spent? s = some directive → Answered entry.result) := by
  intro c answer left
  have hawaits : Awaits s c.past c.state.outstanding := awaits_run store steps
  obtain ⟨result, hresult, hdecided⟩ := decided_request s (site s backend now) c.state
  change answer = _ at hresult
  change Decided s now _ _ result left.outstanding at hdecided
  generalize left.outstanding = awaitedThen at hdecided ⊢
  have hassigned {assignment : Assignment} (h : answer = .ok (.assignment assignment)) :
      result = .ok assignment := by
    rw [hresult] at h
    cases result <;> simp_all [Except.map]
  have hstill {directive : Directive} (h : c.state.outstanding = some directive) :
      StillAwaited s c.past directive := by
    rw [h] at hawaits
    cases hawaits
    assumption
  refine ⟨?_, ?_, ?_, ?_, fun hwriting => answered_of_spent hwriting store steps⟩
  · intro directive hidle
    rw [hassigned hidle] at hdecided
    cases hdecided with
    | idle hawaited hfresh => exact ⟨hstill hawaited, hfresh⟩
  · intro directive hcrawl
    rw [hassigned hcrawl] at hdecided
    cases hdecided with
    | crawl hfresh =>
      cases hout : c.state.outstanding with
      | none =>
        rw [hout] at hawaits
        cases hawaits with
        | never hissued => exact .inl hissued
        | spent hlast hspent => exact .inr ⟨_, _, hlast, .inl hspent⟩
      | some previous =>
        obtain ⟨since, hlast, -⟩ := hstill hout
        have hold := cooldown_lt_of_not_isFresh (not_isFresh_of_filter hfresh hout)
        exact .inr ⟨previous, since, hlast, .inr hold⟩
  · intro id url leaseTime timeout hspider
    rw [hassigned hspider] at hdecided
    cases hdecided with
    | spider hdepth henough =>
      refine ⟨_, hdepth, henough.imp_right ?_⟩
      rintro ⟨hone, directive, hawaited, hfresh⟩
      exact ⟨hone, directive, hstill hawaited, isFresh_iff.1 hfresh,
        le_cooldown_of_isFresh hfresh⟩
  · intro hother
    cases hdecided with
    | crawl hfresh htoken => exact absurd hresult (hother _)
    | _ => rfl

def hollow : Backend Unit where
  perform _ call store := (match call with
    | .connect _ | .enqueue _ | .retire _ | .recordFailure _ | .setCrawlId _ => .ok ()
    | .takeTop | .leased _ => .error .notFound
    | .grant _ => .ok 0
    | .leaseTime _ => .ok none
    | .depth => .ok 1
    | .crawlId => .ok 0
    | .leases => .ok [], store)

/-- Whoever asks while the directive is fresh is put off, for all the jobs that are reported. -/
theorem directives_throttled_hollow :
    let s : Settings := {}
    let c := run s hollow () [⟨.takeJob, 1000⟩]
    (c.ask s hollow ⟨.takeJob, 2000⟩).1 = .ok (.assignment (.idle ⟨0, 1000⟩)) ∧
      StillAwaited s c.past ⟨0, 1000⟩ ∧
      (c.ask s hollow ⟨.takeJob, 151001⟩).1 = .ok (.assignment (.crawl ⟨0, 151001⟩)) ∧
      (issued c.past = [] ∨ ∃ previous since, LastIssued c.past previous since ∧
        ((∃ entry ∈ since, entry.Spends s previous) ∨
          (s.cooldown.millis : Int) < 151001 - previous.token.toInt)) := by
  intro s c
  have hidle : (c.ask s hollow ⟨.takeJob, 2000⟩).1 = .ok (.assignment (.idle ⟨0, 1000⟩)) := by
    decide +kernel
  have hcrawl : (c.ask s hollow ⟨.takeJob, 151001⟩).1 =
      .ok (.assignment (.crawl ⟨0, 151001⟩)) := by decide +kernel
  have hearly := directives_throttled s hollow () [⟨.takeJob, 1000⟩] 2000
  have hlate := directives_throttled s hollow () [⟨.takeJob, 1000⟩] 151001
  exact ⟨hidle, (hearly.1 _ hidle).1, hcrawl, hlate.2.1 _ hcrawl⟩

end Shift
end CrawlCluster.Coordinator
