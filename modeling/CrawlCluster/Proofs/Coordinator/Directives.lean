import CrawlCluster.Proofs.Coordinator.Transition
import Mathlib.Data.List.Nodup

set_option autoImplicit false

namespace CrawlCluster.Coordinator

namespace Entry

def issued? (entry : Entry) : Option Directive :=
  match entry.result with
  | .ok (.assignment (.crawl directive)) => some directive
  | _ => none

/-- The directive that a harvest was accepted for. -/
def consumed? (s : Settings) (entry : Entry) : Option Directive :=
  match entry.operation.read s, entry.result with
  | .ok (.harvest brought), .ok _ => some brought.directive
  | _, _ => none

def await (s : Settings) (out : Option Directive) (entry : Entry) : Option Directive :=
  match entry.issued?, entry.consumed? s with
  | some directive, _ => some directive
  | none, some _ => none
  | none, none => out

end Entry

def issued (past : List Entry) : List Directive := past.filterMap Entry.issued?

def consumed (s : Settings) (past : List Entry) : List Directive :=
  past.filterMap (Entry.consumed? s)

def awaited (s : Settings) (past : List Entry) : Option Directive := past.foldl (Entry.await s) none

variable {s : Settings}

@[simp] theorem issued_append (past : List Entry) (entry : Entry) :
    issued (past ++ [entry]) = issued past ++ entry.issued?.toList := by
  cases h : entry.issued? <;> simp [issued, h]

@[simp] theorem consumed_append (past : List Entry) (entry : Entry) :
    consumed s (past ++ [entry]) = consumed s past ++ (entry.consumed? s).toList := by
  cases h : entry.consumed? s <;> simp [consumed, h]

@[simp] theorem awaited_append (past : List Entry) (entry : Entry) :
    awaited s (past ++ [entry]) = entry.await s (awaited s past) := by
  simp [awaited]

/-- A directive is only replaced when it is older than the cooldown, and so is its token. -/
theorem lt_of_not_isFresh {now : Int64} {directive : Directive}
    (h : isFresh s now directive = false) : directive.token < now := by
  simp only [isFresh, decide_eq_false_iff_not, Int64.le_iff_toInt_le, Clock.toInt_nearest] at h
  rw [Int64.lt_iff_toInt_lt]
  omega

theorem not_isFresh_of_filter {now : Int64} {outstanding : Option Directive}
    (h : outstanding.filter (isFresh s now) = none) {previous : Directive}
    (hprevious : outstanding = some previous) : isFresh s now previous = false := by
  simpa [hprevious, Option.filter_eq_none_iff] using h

theorem nextToken_eq {now : Int64} {outstanding : Option Directive}
    (h : outstanding.filter (isFresh s now) = none) : nextToken now outstanding = now := by
  cases outstanding with
  | none => rfl
  | some previous =>
    have hlt := lt_of_not_isFresh (not_isFresh_of_filter h rfl)
    have hmax : previous.token < Int64.maxValue := Int64.lt_of_lt_of_le hlt now.le_maxValue
    have hnext := Clock.toInt_add_one hmax
    rw [nextToken]
    split
    · next hle =>
      rw [Int64.lt_iff_toInt_lt] at hlt
      rw [Int64.le_iff_toInt_le] at hle
      rw [← Int64.toInt_inj]
      omega
    · rfl

namespace Operation.Comes

variable [ScanOrder] {step : Step} {result : Except JobError Answer} {b left : Books}

theorem issues {directive : Directive}
    (h : Operation.Comes s step (.ok (.assignment (.crawl directive))) b left) :
    directive.token = step.now ∧ left.outstanding = some directive ∧
      ∀ previous, b.outstanding = some previous → previous.token < directive.token := by
  obtain ⟨request, -, htransition⟩ := h.answered
  cases htransition with
  | directed hdepth hfresh =>
    have htoken := nextToken_eq hfresh
    refine ⟨htoken, rfl, ?_⟩
    intro previous hprevious
    rw [htoken]
    exact lt_of_not_isFresh (not_isFresh_of_filter hfresh hprevious)

theorem harvest {brought : Harvest} (hread : step.operation.read s = .ok (.harvest brought))
    (h : Operation.Comes s step result b left) :
    (b.outstanding.map (·.token) = some brought.directive.token ∧
      left.outstanding = none ∧ ∃ answer, result = .ok answer) ∨
    (b.outstanding.map (·.token) ≠ some brought.directive.token ∧
      left = b ∧ result = .error .crawlDeprecated) := by
  cases (Operation.comes_ok hread).1 h with
  | harvested htoken => exact .inl ⟨htoken, rfl, _, rfl⟩
  | deprecated htoken => exact .inr ⟨htoken, rfl, rfl⟩

theorem directives (h : Operation.Comes s step result b left) :
    let entry : Entry := ⟨step.operation, result⟩
    (entry.issued? = none ∧ entry.consumed? s = none ∧ left.outstanding = b.outstanding) ∨
    (∃ directive, entry.issued? = some directive ∧ entry.consumed? s = none ∧
      left.outstanding = some directive) ∨
    ∃ directive, entry.issued? = none ∧ entry.consumed? s = some directive ∧
      b.outstanding.map (·.token) = some directive.token ∧ left.outstanding = none := by
  cases hread : step.operation.read s with
  | error error =>
    obtain ⟨rfl, rfl⟩ := (Operation.comes_error hread).1 h
    simp [Entry.issued?, Entry.consumed?, hread]
  | ok request =>
    cases (Operation.comes_ok hread).1 h with
    | directed => exact .inr (.inl ⟨_, rfl, by simp [Entry.consumed?, hread], rfl⟩)
    | harvested htoken =>
      exact .inr (.inr ⟨_, rfl, by simp [Entry.consumed?, hread], htoken, rfl⟩)
    | _ => exact .inl ⟨rfl, by simp [Entry.consumed?, hread], rfl⟩

end Operation.Comes

/-- What the answers tell about directives: which one is awaited, and that each token was used up
no more often than it was given out, the awaited one being still to be used. -/
structure Awaiting (s : Settings) (past : List Entry) (b : Books) : Prop where
  outstanding : b.outstanding = awaited s past
  mem_issued : ∀ directive, awaited s past = some directive → directive ∈ issued past
  count_le : ∀ token, ((consumed s past).map (·.token)).count token +
    ((awaited s past).map (·.token)).toList.count token ≤
      ((issued past).map (·.token)).count token

theorem Awaiting.step [ScanOrder] {past : List Entry} {b left : Books} {step : Step}
    {result : Except JobError Answer} (h : Awaiting s past b)
    (hcomes : Operation.Comes s step result b left) :
    Awaiting s (past ++ [⟨step.operation, result⟩]) left := by
  have hcount := h.count_le
  rcases hcomes.directives with ⟨hissued, hconsumed, hleft⟩ |
    ⟨directive, hissued, hconsumed, hleft⟩ | ⟨directive, hissued, hconsumed, htoken, hleft⟩
  · refine ⟨?_, ?_, ?_⟩
    · simpa [Entry.await, hissued, hconsumed, hleft] using h.outstanding
    · simpa [Entry.await, hissued, hconsumed] using h.mem_issued
    · simpa [Entry.await, hissued, hconsumed]
        using hcount
  · refine ⟨?_, ?_, ?_⟩
    · simp [Entry.await, hissued, hconsumed, hleft]
    · simp [Entry.await, hissued, hconsumed]
    · intro token
      have hbefore := hcount token
      simp only [awaited_append, issued_append, consumed_append, Entry.await, hissued, hconsumed,
        Option.toList_none, Option.toList_some, Option.map_some, List.append_nil, List.map_append,
        List.map_cons, List.map_nil, List.count_append]
      omega
  · refine ⟨?_, ?_, ?_⟩
    · simp [Entry.await, hissued, hconsumed, hleft]
    · simp [Entry.await, hissued, hconsumed]
    · intro token
      have hbefore := hcount token
      rw [← h.outstanding, htoken] at hbefore
      simpa [Entry.await, hissued, hconsumed]
        using hbefore

namespace Course

section

variable [ScanOrder]

theorem run_awaiting (s : Settings) (clock : Nat → Int64) (steps : List Step) :
    Awaiting s (run s clock steps).past (run s clock steps).books := by
  refine run_keeps s clock (Awaiting s) [] steps ?_ ?_
  · exact ⟨rfl, by simp [run, awaited], by simp [run, awaited, consumed]⟩
  · intro past b left step result _ hawaiting hcomes
    exact hawaiting.step hcomes

/-- The tokens given out are clock readings at which requests came, in their order. -/
theorem tokens_sublist (s : Settings) (clock : Nat → Int64) (steps : List Step) :
    ((issued (run s clock steps).past).map (·.token)).Sublist (steps.map (·.now)) := by
  induction steps using List.reverseRecOn with
  | nil => exact .refl _
  | append_singleton steps last ih =>
    have hcomes := (run_sound s clock steps).comes (s := s) last
    rw [run_snoc, List.map_append]
    show ((issued ((run s clock steps).past ++ [_])).map (·.token)).Sublist _
    rw [issued_append, List.map_append]
    refine ih.append ?_
    cases hissued : Entry.issued? ⟨last.operation, ((run s clock steps).ask s last).1⟩ with
    | none => exact List.nil_sublist _
    | some directive =>
      unfold Entry.issued? at hissued
      split at hissued
      · next answered hanswered =>
        obtain rfl := Option.some.inj hissued
        rw [show ((run s clock steps).ask s last).1 = _ from hanswered] at hcomes
        simp [hcomes.issues.1]
      · contradiction

/-- At any time in the life of a coordinator: directives bear clock readings, later than that of
the one they take the place of; each token was used up no more often than it was given out; and a
harvest is accepted just when its token is the awaited one, and changes nothing otherwise. So, if
no two directives were issued at one reading, a harvest for any but the awaited one is refused. -/
theorem harvesting_exact (s : Settings) (clock : Nat → Int64) (steps : List Step) :
    let c := run s clock steps
    let tokens := (issued c.past).map (·.token)
    tokens.Sublist (steps.map (·.now)) ∧
    (∀ step directive, (c.ask s step).1 = .ok (.assignment (.crawl directive)) →
      directive.token = step.now ∧
        ∀ previous, awaited s c.past = some previous → previous.token < directive.token) ∧
    (∀ token, ((consumed s c.past).map (·.token)).count token ≤ tokens.count token) ∧
    (∀ step brought, step.operation.read s = .ok (.harvest brought) →
      ((∃ answer, (c.ask s step).1 = .ok answer) ↔
        (awaited s c.past).map (·.token) = some brought.directive.token) ∧
      ((awaited s c.past).map (·.token) ≠ some brought.directive.token →
        (c.ask s step).1 = .error .crawlDeprecated ∧ (c.take s step).books = c.books)) ∧
    (tokens.Nodup → ∀ directive ∈ issued c.past, awaited s c.past ≠ some directive →
      ∀ step brought, step.operation.read s = .ok (.harvest brought) →
        brought.directive.token = directive.token →
        (c.ask s step).1 = .error .crawlDeprecated) := by
  intro c tokens
  have hawaiting : Awaiting s c.past c.books := run_awaiting s clock steps
  have hcomes : ∀ step, Operation.Comes s step (c.ask s step).1 c.books (c.take s step).books :=
    (run_sound s clock steps).comes
  have hharvest : ∀ step brought, step.operation.read s = .ok (.harvest brought) →
      ((∃ answer, (c.ask s step).1 = .ok answer) ↔
        (awaited s c.past).map (·.token) = some brought.directive.token) ∧
      ((awaited s c.past).map (·.token) ≠ some brought.directive.token →
        (c.ask s step).1 = .error .crawlDeprecated ∧ (c.take s step).books = c.books) := by
    intro step brought hread
    rw [← hawaiting.outstanding]
    rcases (hcomes step).harvest hread with ⟨htoken, -, haccepted⟩ | ⟨htoken, hbooks, hrefused⟩
    · exact ⟨iff_of_true haccepted htoken, fun hne => absurd htoken hne⟩
    · refine ⟨iff_of_false ?_ htoken, fun _ => ⟨hrefused, hbooks⟩⟩
      rintro ⟨answer, hanswer⟩
      rw [hrefused] at hanswer
      contradiction
  refine ⟨tokens_sublist s clock steps, ?_, ?_, hharvest, ?_⟩
  · intro step directive hanswer
    have hissues := hcomes step
    rw [hanswer] at hissues
    rw [← hawaiting.outstanding]
    exact ⟨hissues.issues.1, hissues.issues.2.2⟩
  · intro token
    exact Nat.le_trans (Nat.le_add_right ..) (hawaiting.count_le token)
  · intro hnodup directive hissued hother step brought hread htoken
    refine ((hharvest step brought hread).2 ?_).1
    intro hawaited
    obtain ⟨current, hcurrent, he⟩ := Option.map_eq_some_iff.1 hawaited
    have hmem := hawaiting.mem_issued current hcurrent
    obtain rfl := List.inj_on_of_nodup_map hnodup hmem hissued (he.trans htoken)
    exact hother hcurrent

end

def reissued : List Step :=
  [⟨.takeJob, 1000⟩, ⟨.uploadHarvest "5?1000", 1000⟩, ⟨.takeJob, 1000⟩]

/-- The harvest of the first directive is accepted a second time, in place of that of the other. -/
theorem harvesting_exact_reissued :
    let s : Settings := {}
    let c := run s (fun _ => 1000) reissued
    issued c.past = [⟨0, 1000⟩, ⟨5, 1000⟩] ∧ consumed s c.past = [⟨5, 1000⟩] ∧
      ∃ answer, (c.ask s ⟨.uploadHarvest "5?1000", 1000⟩).1 = .ok answer := by
  intro s c
  have hread : Operation.read s (.uploadHarvest "5?1000") =
      .ok (.harvest { directive := ⟨5, 1000⟩ }) := by decide +kernel
  have hawaited : (awaited s c.past).map (·.token) = some 1000 := by decide +kernel
  have haccepted := ((harvesting_exact s (fun _ => 1000) reissued).2.2.2.1
    ⟨.uploadHarvest "5?1000", 1000⟩ _ hread).1.2 hawaited
  exact ⟨by decide +kernel, by decide +kernel, haccepted⟩

end Course
end CrawlCluster.Coordinator
