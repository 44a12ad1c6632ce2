import CrawlCluster.Proofs.Coordinator.Ensures

set_option autoImplicit false

namespace CrawlCluster

def Store.held? (lease : Lease) (s : Store) : Option Job :=
  (s.leased? lease.jobId).filter (·.leaseTime == lease.leaseTime)

theorem Store.held?_eq_some_iff {lease : Lease} {job : Job} {s : Store} :
    s.held? lease = some job ↔
      s.leased? lease.jobId = some job ∧ job.leaseTime = lease.leaseTime := by
  simp [held?, Option.filter_eq_some_iff]

theorem Store.leased?_of_held? {lease : Lease} {job : Job} {s : Store}
    (h : s.held? lease = some job) : s.leased? job.id = some job := by
  obtain ⟨hjob, -⟩ := held?_eq_some_iff.1 h
  have hid : job.id = lease.jobId := by simpa using List.find?_some hjob
  rw [hid]
  exact hjob

theorem Store.held?_eq_none_iff {lease : Lease} {s : Store} :
    s.held? lease = none ↔ (s.leased? lease.jobId).map (·.leaseTime) ≠ some lease.leaseTime := by
  cases h : s.leased? lease.jobId <;> simp [held?, h, Option.filter]

namespace Coordinator.Program

variable {α : Type} {now : Int64} {s : State Store} {conduct : Conduct}

theorem ensures_readClock {goal : Except JobError Int64 → State Store → Prop} :
    (perform .readClock).Ensures conduct now goal s ↔ goal (.ok now) s := by
  constructor
  · intro h
    exact h now s ⟨rfl, rfl⟩
  · rintro h _ _ ⟨rfl, rfl⟩
    exact h

theorem ensures_outstanding {goal : Except JobError (Option Directive) → State Store → Prop} :
    (perform .outstanding).Ensures conduct now goal s ↔ goal (.ok s.books.outstanding) s := by
  constructor
  · intro h
    exact h s.outstanding s ⟨rfl, rfl⟩
  · rintro h _ _ ⟨rfl, rfl⟩
    exact h

theorem ensures_crawlId {goal : Except JobError Int32 → State Store → Prop} :
    (perform .crawlId).Ensures conduct now goal s ↔ goal (.ok s.books.crawlId) s := by
  constructor
  · intro h
    exact h s.crawlId s ⟨rfl, rfl⟩
  · rintro h _ _ ⟨rfl, rfl⟩
    exact h

theorem ensures_setOutstanding {directive : Option Directive}
    {goal : Except JobError Unit → State Store → Prop}
    (h : ∀ left, left.books = { s.books with outstanding := directive } → goal (.ok ()) left) :
    (perform (.setOutstanding directive)).Ensures conduct now goal s := by
  rintro _ _ rfl
  exact h _ rfl

theorem ensures_setCrawlId {crawlId : Int32} {goal : Except JobError Unit → State Store → Prop}
    (h : ∀ left, left.books = { s.books with crawlId } → goal (.ok ()) left) :
    (perform (.setCrawlId crawlId)).Ensures conduct now goal s := by
  rintro _ _ rfl
  exact h _ rfl

theorem ensures_record {event : Event} {goal : Except JobError Unit → State Store → Prop}
    (h : ∀ left, left.books = { s.books with events := s.books.events ++ [event] } →
      goal (.ok ()) left) :
    (perform (.record event)).Ensures conduct now goal s := by
  rintro _ _ rfl
  exact h _ rfl

variable [ScanOrder]

theorem working_reply {call : StoreCall} {goal : Except StoreError call.Reply → State Store → Prop}
    (h : ∀ t left, left.books = { s.books with store := (s.books.store.perform t call).2 } →
      goal (s.books.store.perform t call).1 left) :
    ∀ reply left, (Action.ask call).May .working now s reply left → goal reply left := by
  rintro reply _ ⟨store, repeats, slept, ⟨t, ht⟩, rfl⟩
  have hgoal := h t
  have hstore : s.books.store.perform t call = (reply, store) := ht
  rw [hstore] at hgoal
  exact hgoal _ rfl

theorem working_ask {call : StoreCall}
    {goal : Except JobError (Except StoreError call.Reply) → State Store → Prop}
    (h : ∀ t left, left.books = { s.books with store := (s.books.store.perform t call).2 } →
      goal (.ok (s.books.store.perform t call).1) left) :
    (ask call).Ensures .working now goal s :=
  working_reply h

theorem working_query {call : StoreCall} {goal : Except JobError call.Reply → State Store → Prop}
    (h : ∀ t left, left.books = { s.books with store := (s.books.store.perform t call).2 } →
      goal (settle (s.books.store.perform t call).1) left) :
    (query call).Ensures .working now goal s :=
  ensures_query.2 (working_reply h)

theorem working_fenced {lease : Lease} {goal : Except JobError Job → State Store → Prop}
    (h : ∀ left, left.books = s.books →
      goal (((s.books.store.held? lease).elim (.error .notExpected) .ok)) left) :
    (fenced lease).Ensures .working now goal s := by
  unfold fenced
  rw [ensures_bind]
  apply working_query
  intro t left hleft
  simp only [Store.perform, settle, then_ok] at hleft ⊢
  split
  · next hcurrent =>
    rw [ensures_bind]
    apply working_ask
    intro t' left' hleft'
    obtain ⟨job, hjob, htime⟩ := Option.map_eq_some_iff.1 hcurrent
    have hheld : s.books.store.held? lease = some job := Store.held?_eq_some_iff.2 ⟨hjob, htime⟩
    have hgoal := h left'
    simp only [hleft, Store.perform, hjob] at hleft' ⊢
    simpa [hheld] using hgoal hleft'
  · next hcurrent =>
    have hheld : s.books.store.held? lease = none := Store.held?_eq_none_iff.2 hcurrent
    have hgoal := h left
    simpa [hheld] using hgoal hleft

end Coordinator.Program
end CrawlCluster
