import CrawlCluster.Coordinator.Run
import Mathlib.Algebra.GroupWithZero.Nat

set_option autoImplicit false

namespace CrawlCluster

open CrawlCluster.Frame (RequestKind)

namespace Event

def isRequest (client : String) (kind : RequestKind) : Event → Bool
  | .request _ other kind' => (client, kind) = (other, kind')
  | _ => false

def isFinished (outcome : Outcome) : Event → Bool
  | .finished _ _ other => outcome.id = other.id
  | _ => false

/-- The bytes that were recorded for a language, as often as it is named. -/
def bytesFor (language : String) : Event → Nat
  | .languages sizes => ((sizes.filter (·.1 = language)).map (·.2.toNat)).sum
  | _ => 0

def project? : Event → Option String
  | .project url => some url
  | _ => none

theorem isRequest_eq_true {client : String} {kind : RequestKind} {e : Event} :
    e.isRequest client kind = true ↔ ∃ node, e = .request node client kind := by
  cases e with
  | request node other kind' =>
    simp only [isRequest, decide_eq_true_eq, Prod.mk.injEq]
    constructor
    · rintro ⟨rfl, rfl⟩
      exact ⟨node, rfl⟩
    · rintro ⟨_, h⟩
      cases h
      exact ⟨rfl, rfl⟩
  | _ => simp [isRequest]

end Event

inductive Gauge where
  | requests (client : String) (kind : RequestKind)
  | finished (outcome : Outcome)
  | bytes (language : String)

def Event.amount : Gauge → Event → Nat
  | .requests client kind, e => (e.isRequest client kind).toNat
  | .finished outcome, e => (e.isFinished outcome).toNat
  | .bytes language, e => e.bytesFor language

namespace Counter

variable {κ : Type} [DecidableEq κ] {key : κ} {counter left : Counter κ}

theorem add_eq_some {amount : UInt64} (h : (counter.get key).toNat + amount.toNat < 2 ^ 64) :
    counter.add key amount = some (counter.put key (counter.get key + amount)) :=
  if_pos h

theorem get_add {amount : UInt64} (h : counter.add key amount = some left) (other : κ) :
    (left.get other).toNat =
      (counter.get other).toNat + if other = key then amount.toNat else 0 := by
  unfold add at h
  split at h
  · next hfits =>
    obtain rfl := Option.some.inj h
    rw [get_put]
    split
    · next hkey => rw [hkey, UInt64.toNat_add, Nat.mod_eq_of_lt hfits]
    · rfl
  · contradiction

theorem sum_named_cons (key : κ) (amount : κ × UInt64) (amounts : List (κ × UInt64)) :
    (((amount :: amounts).filter (·.1 = key)).map (·.2.toNat)).sum =
      (if key = amount.1 then amount.2.toNat else 0) +
        ((amounts.filter (·.1 = key)).map (·.2.toNat)).sum := by
  by_cases hkey : key = amount.1
  · simp [hkey]
  · simp [hkey, Ne.symm hkey]

theorem get_addAll {amounts : List (κ × UInt64)} (h : counter.addAll amounts = some left)
    (key : κ) : (left.get key).toNat =
      (counter.get key).toNat + ((amounts.filter (·.1 = key)).map (·.2.toNat)).sum := by
  induction amounts generalizing counter with
  | nil =>
    obtain rfl := Option.some.inj h
    rfl
  | cons amount amounts ih =>
    obtain ⟨mid, hmid, hrest⟩ := Option.bind_eq_some_iff.1 h
    rw [ih hrest, get_add hmid, Nat.add_assoc, sum_named_cons]

theorem exists_addAll {amounts : List (κ × UInt64)} (h : ∀ key, (counter.get key).toNat +
      ((amounts.filter (·.1 = key)).map (·.2.toNat)).sum < 2 ^ 64) :
    ∃ left, counter.addAll amounts = some left := by
  induction amounts generalizing counter with
  | nil => exact ⟨counter, rfl⟩
  | cons amount amounts ih =>
    simp only [sum_named_cons] at h
    have hfirst : (counter.get amount.1).toNat + amount.2.toNat < 2 ^ 64 := by
      have hall := h amount.1
      rw [if_pos rfl] at hall
      omega
    have hadd := add_eq_some hfirst
    have hrest : ∀ key, ((counter.put amount.1 (counter.get amount.1 + amount.2)).get key).toNat +
        ((amounts.filter (·.1 = key)).map (·.2.toNat)).sum < 2 ^ 64 := by
      intro key
      rw [get_add hadd, Nat.add_assoc]
      exact h key
    obtain ⟨left, hleft⟩ := ih hrest
    exact ⟨left, Option.bind_eq_some_iff.2 ⟨_, hadd, hleft⟩⟩

end Counter

namespace Stats

def shown : Gauge → Stats → UInt64
  | .requests client kind, s => s.requestCount client kind
  | .finished outcome, s => s.finishedCount outcome
  | .bytes language, s => s.bytesOf language

variable {e : Event} {events : List Event} {s left : Stats}

theorem shown_record (h : s.record e = some left) (gauge : Gauge) :
    (left.shown gauge).toNat = (s.shown gauge).toNat + e.amount gauge := by
  cases e with
  | request node client kind =>
    obtain ⟨requests, hadd, rfl⟩ := Option.map_eq_some_iff.1 h
    cases gauge with
    | requests other kind' =>
      have hshown := Counter.get_add hadd (other, kind')
      simp only [shown, requestCount, Event.amount, Event.isRequest, hshown]
      split <;> simp_all
    | _ => rfl
  | finished node client outcome =>
    obtain ⟨finished, hadd, rfl⟩ := Option.map_eq_some_iff.1 h
    cases gauge with
    | finished other =>
      have hshown := Counter.get_add hadd other.id
      simp only [shown, finishedCount, Event.amount, Event.isFinished, hshown]
      split <;> simp_all
    | _ => rfl
  | languages sizes =>
    obtain ⟨languageBytes, hadd, rfl⟩ := Option.map_eq_some_iff.1 h
    cases gauge with
    | bytes language => exact Counter.get_addAll hadd language
    | _ => rfl
  | project url =>
    obtain rfl := Option.some.inj h
    cases gauge <;> rfl

theorem exists_record (h : ∀ gauge, (s.shown gauge).toNat + e.amount gauge < 2 ^ 64) :
    ∃ left, s.record e = some left := by
  cases e with
  | request node client kind =>
    have hfits := h (.requests client kind)
    simp only [Event.amount, Event.isRequest, decide_true, Bool.toNat_true] at hfits
    exact ⟨_, Option.map_eq_some_iff.2 ⟨_, Counter.add_eq_some hfits, rfl⟩⟩
  | finished node client outcome =>
    have hfits := h (.finished outcome)
    simp only [Event.amount, Event.isFinished, decide_true, Bool.toNat_true] at hfits
    exact ⟨_, Option.map_eq_some_iff.2 ⟨_, Counter.add_eq_some hfits, rfl⟩⟩
  | languages sizes =>
    obtain ⟨languageBytes, hadd⟩ := Counter.exists_addAll fun language => h (.bytes language)
    exact ⟨_, Option.map_eq_some_iff.2 ⟨languageBytes, hadd, rfl⟩⟩
  | project url => exact ⟨_, rfl⟩

theorem shown_recordAll (h : s.recordAll events = some left) (gauge : Gauge) :
    (left.shown gauge).toNat = (s.shown gauge).toNat + (events.map (·.amount gauge)).sum := by
  induction events generalizing s with
  | nil =>
    obtain rfl := Option.some.inj h
    rfl
  | cons e events ih =>
    obtain ⟨mid, hmid, hrest⟩ := Option.bind_eq_some_iff.1 h
    rw [ih hrest, shown_record hmid, List.map_cons, List.sum_cons, Nat.add_assoc]

theorem exists_recordAll
    (h : ∀ gauge, (s.shown gauge).toNat + (events.map (·.amount gauge)).sum < 2 ^ 64) :
    ∃ left, s.recordAll events = some left := by
  induction events generalizing s with
  | nil => exact ⟨s, rfl⟩
  | cons e events ih =>
    simp only [List.map_cons, List.sum_cons] at h
    obtain ⟨mid, hmid⟩ : ∃ mid, s.record e = some mid := exists_record fun gauge => by
      have hall := h gauge
      omega
    obtain ⟨left, hleft⟩ := ih (s := mid) fun gauge => by
      rw [shown_record hmid, Nat.add_assoc]
      exact h gauge
    exact ⟨left, Option.bind_eq_some_iff.2 ⟨mid, hmid, hleft⟩⟩

theorem recordAll_append (before after : List Event) (s : Stats) :
    s.recordAll (before ++ after) = (s.recordAll before).bind (·.recordAll after) :=
  List.foldlM_append

theorem recordAll_eq_none_iff : recordAll events {} = none ↔
    ∃ gauge, 2 ^ 64 ≤ (events.map (·.amount gauge)).sum := by
  have hstart : ∀ gauge, (shown gauge {}).toNat = 0 := fun gauge => by cases gauge <;> rfl
  constructor
  · intro h
    refine Classical.byContradiction fun hnone => ?_
    have hfits : ∀ gauge, (events.map (·.amount gauge)).sum < 2 ^ 64 := fun gauge =>
      Nat.lt_of_not_le fun hover => hnone ⟨gauge, hover⟩
    obtain ⟨left, hleft⟩ := exists_recordAll (s := {}) fun gauge => by
      rw [hstart, Nat.zero_add]
      exact hfits gauge
    rw [h] at hleft
    contradiction
  · rintro ⟨gauge, hover⟩
    rw [Option.eq_none_iff_forall_not_mem]
    intro left hleft
    have hshown := shown_recordAll hleft gauge
    have hbound := (left.shown gauge).toNat_lt
    rw [hstart, Nat.zero_add] at hshown
    omega

theorem sum_map_toNat {α : Type} (p : α → Bool) (l : List α) :
    (l.map fun a => (p a).toNat).sum = l.countP p := by
  induction l with
  | nil => rfl
  | cons a l ih => cases h : p a <;> simp [h, ih, Nat.add_comm]

theorem reverse_addProject (url : String) {recent : List String}
    (h : recent.length ≤ recentLimit) :
    (addProject url recent).reverse = (url :: recent.reverse).take recentLimit := by
  rw [addProject]
  split
  · next hfull =>
    cases recent with
    | nil => exact absurd hfull (by decide)
    | cons oldest later =>
      have hlast : url :: (oldest :: later).reverse = url :: later.reverse ++ [oldest] := by simp
      have hlimit : (url :: later.reverse).length = recentLimit := by simpa using hfull
      rw [hlast, List.take_left' hlimit, List.tail_cons, List.reverse_append]
      rfl
  · next hroom =>
    have hfits : (url :: recent.reverse).length ≤ recentLimit := by
      rw [List.length_cons, List.length_reverse]
      omega
    rw [List.take_of_length_le hfits, List.reverse_append]
    rfl

theorem recentProjects_record (h : s.record e = some left) :
    left.recentProjects = match e.project? with
      | some url => (addProject url s.recent).reverse
      | none => s.recentProjects := by
  cases e with
  | project url =>
    obtain rfl := Option.some.inj h
    rfl
  | _ =>
    obtain ⟨_, -, rfl⟩ := Option.map_eq_some_iff.1 h
    rfl

theorem recentProjects_recordAll (h : s.recordAll events = some left)
    (hlimit : s.recentProjects.length ≤ recentLimit) : left.recentProjects =
      ((events.filterMap Event.project?).reverse ++ s.recentProjects).take recentLimit := by
  induction events generalizing s with
  | nil =>
    obtain rfl := Option.some.inj h
    exact (List.take_of_length_le hlimit).symm
  | cons e events ih =>
    obtain ⟨mid, hmid, hrest⟩ := Option.bind_eq_some_iff.1 h
    have hfirst := recentProjects_record hmid
    cases hproject : e.project? with
    | none =>
      simp only [hproject] at hfirst
      rw [ih hrest (hfirst ▸ hlimit), List.filterMap_cons, hproject, hfirst]
    | some url =>
      simp only [hproject, reverse_addProject url (List.length_reverse ▸ hlimit)] at hfirst
      have hlater := ih hrest
        (hfirst ▸ List.length_take_le recentLimit (url :: s.recent.reverse))
      rw [hfirst, List.take_append, List.take_take, Nat.min_eq_left (Nat.sub_le ..),
        ← List.take_append] at hlater
      simpa [hproject, recentProjects] using hlater

/-- Whatever is recorded in whatever order: a recorder that was not stopped shows how many requests
of a kind a client made, how many jobs ended in some way and all the bytes of a language, one that
is named twice in one go counted twice, and the latest projects, as many as the limit allows, the
latest first. It was stopped just if one of these numbers has no room in 64 bits. -/
theorem recordAll_exact (events : List Event) :
    (∀ s, recordAll events {} = some s →
      (∀ client kind, (s.requestCount client kind).toNat =
        events.countP (·.isRequest client kind)) ∧
      (∀ outcome, (s.finishedCount outcome).toNat = events.countP (·.isFinished outcome)) ∧
      (∀ language, (s.bytesOf language).toNat = (events.map (·.bytesFor language)).sum) ∧
      let urls := events.filterMap Event.project?
      s.recentProjects = urls.reverse.take (min urls.length recentLimit)) ∧
    (recordAll events {} = none ↔
      (∃ client kind, 2 ^ 64 ≤ events.countP (·.isRequest client kind)) ∨
      (∃ outcome, 2 ^ 64 ≤ events.countP (·.isFinished outcome)) ∨
      ∃ language, 2 ^ 64 ≤ (events.map (·.bytesFor language)).sum) := by
  constructor
  · intro s h
    have hshown := shown_recordAll h
    refine ⟨fun client kind => ?_, fun outcome => ?_, fun language => ?_, ?_⟩
    · rw [← sum_map_toNat]
      exact (hshown (.requests client kind)).trans (Nat.zero_add _)
    · rw [← sum_map_toNat]
      exact (hshown (.finished outcome)).trans (Nat.zero_add _)
    · exact (hshown (.bytes language)).trans (Nat.zero_add _)
    · intro urls
      have hlatest : s.recentProjects = (urls.reverse ++ []).take recentLimit :=
        recentProjects_recordAll h (Nat.zero_le recentLimit)
      rw [hlatest, List.append_nil, List.take_eq_take_min, List.length_reverse, Nat.min_comm]
  · rw [recordAll_eq_none_iff]
    constructor
    · rintro ⟨gauge, hover⟩
      cases gauge with
      | requests client kind => exact .inl ⟨client, kind, sum_map_toNat _ events ▸ hover⟩
      | finished outcome => exact .inr (.inl ⟨outcome, sum_map_toNat _ events ▸ hover⟩)
      | bytes language => exact .inr (.inr ⟨language, hover⟩)
    · rintro (⟨client, kind, hover⟩ | ⟨outcome, hover⟩ | ⟨language, hover⟩)
      · exact ⟨.requests client kind, (sum_map_toNat _ events).symm ▸ hover⟩
      · exact ⟨.finished outcome, (sum_map_toNat _ events).symm ▸ hover⟩
      · exact ⟨.bytes language, hover⟩

def broughtIn : List Event :=
  let site (now : Int64) : Coordinator.Site Store := { backend := Store.backend, retry := {}, now }
  let sent := ((Coordinator.takeJob {}).run (site 1000) { store := {} }).2
  let first := ((Coordinator.uploadHarvest {} "5?1000\nRust?18446744073709551615\n").run
    (site 1500) sent).2
  let sentAgain := ((Coordinator.takeJob {}).run (site 2000) first).2
  ((Coordinator.uploadHarvest {} "5?2000\nRust?1?Go?2?Go?3\n").run (site 2500) sentAgain).2.events

/-- Two uploads are enough: the first is shown exactly, the second stops the recorder. -/
theorem recordAll_exact_overrun :
    broughtIn = [.languages [("Rust", 0xFFFFFFFFFFFFFFFF)],
        .languages [("Rust", 1), ("Go", 2), ("Go", 3)]] ∧
      (∃ s, recordAll (broughtIn.take 1) {} = some s ∧
        (s.bytesOf "Rust").toNat = 2 ^ 64 - 1 ∧ s.recentProjects = []) ∧
      (broughtIn.map (·.bytesFor "Rust")).sum = 2 ^ 64 ∧ recordAll broughtIn {} = none := by
  have hbrought : broughtIn = [.languages [("Rust", 0xFFFFFFFFFFFFFFFF)],
      .languages [("Rust", 1), ("Go", 2), ("Go", 3)]] := by decide +kernel
  have htotal : (broughtIn.map (·.bytesFor "Rust")).sum = 2 ^ 64 := by decide +kernel
  have hfirst : (recordAll (broughtIn.take 1) {}).isSome = true := by decide +kernel
  obtain ⟨s, hs⟩ := Option.isSome_iff_exists.1 hfirst
  obtain ⟨-, -, hbytes, hrecent⟩ := (recordAll_exact (broughtIn.take 1)).1 s hs
  refine ⟨hbrought, ⟨s, hs, (hbytes "Rust").trans (by decide +kernel), ?_⟩, htotal, ?_⟩
  · rw [hrecent, hbrought]
    rfl
  · exact (recordAll_exact broughtIn).2.2 (.inr (.inr ⟨"Rust", Nat.le_of_eq htotal.symm⟩))

end Stats
end CrawlCluster
