import CrawlCluster.Store.Basic

set_option autoImplicit false

namespace CrawlCluster.Store

theorem insertQueued_perm (entry : Queued) (queue : List Queued) :
    (insertQueued entry queue).Perm (entry :: queue) := by
  induction queue with
  | nil => exact .refl _
  | cons q queue ih =>
    rw [insertQueued]
    split
    · exact .refl _
    · exact (ih.cons q).trans (.swap entry q queue)

@[simp] theorem find?_putLease (job : Job) (id : String) (table : List Job) :
    (putLease job table).find? (·.id == id) =
      if job.id = id then some job else table.find? (·.id == id) := by
  induction table with
  | nil => by_cases h : job.id = id <;> simp [putLease, h]
  | cons j table ih =>
    rw [putLease]
    by_cases h : job.id = id
    · split
      · simp [h]
      · split
        · simp [h]
        · next hj _ => simp [ih, h, show j.id ≠ id from h ▸ hj]
    · split
      · next hj => simp [h, hj]
      · split
        · simp [h]
        · simp [List.find?_cons, ih, h]

@[simp] theorem leased?_grant (now : Int64) (job : Job) (id : String) (s : Store) :
    (s.grant now job).leased? id =
      if job.id = id then some { job with leaseTime := s.grantTime now } else s.leased? id := by
  simp [grant, leased?]

@[simp] theorem leased?_retire (id other : String) (s : Store) :
    (s.retire id).leased? other = if other = id then none else s.leased? other := by
  simp only [leased?, retire, List.find?_filter]
  by_cases h : other = id
  · simp [h]
  · simp only [h, if_false]
    congr 1
    funext j
    by_cases hj : j.id = other <;> simp [hj, h]

@[simp]
theorem mem_scan [ScanOrder] {job : Job} {s : Store} : job ∈ ScanOrder.scan s ↔ job ∈ s.current :=
  (ScanOrder.perm s).mem_iff

/-- A lease is granted later than any before, unless the times have run out. -/
theorem lastLease_lt_grantTime {now : Int64} {s : Store} (h : s.lastLease < Int64.maxValue) :
    s.lastLease < s.grantTime now := by
  have hnext := Clock.toInt_add_one h
  rw [grantTime]
  split
  · rw [Int64.lt_iff_toInt_lt, hnext]
    omega
  · next hn =>
    rw [Int64.le_iff_toInt_le, hnext] at hn
    rw [Int64.lt_iff_toInt_lt]
    omega

/-- A store that still works after a call did so before it, and granted no lease past the last. -/
theorem live_of_perform [ScanOrder] {now : Int64} {call : StoreCall}
    {reply : Except StoreError call.Reply} {s left : Store}
    (hperform : s.perform now call = (reply, left)) (hlive : left.exhausted = false) :
    s.exhausted = false ∧ ∀ job, call = .grant job → s.lastLease < Int64.maxValue := by
  have h : (s.perform now call).2.exhausted = false := by rwa [hperform]
  clear hperform
  cases call with
  | grant job =>
    obtain ⟨hlive, hlast⟩ : s.exhausted = false ∧ s.lastLease ≠ Int64.maxValue := by
      simpa [perform, grant] using h
    exact ⟨hlive, fun _ _ => Int64.lt_of_le_of_ne (Int64.le_maxValue _) hlast⟩
  | takeTop =>
    simp only [perform, takeTop] at h
    cases hqueue : s.queue <;> simp_all
  | leased id =>
    simp only [perform] at h
    cases hjob : s.leased? id <;> simp_all
  | _ => exact ⟨h, fun _ hgrant => by cases hgrant⟩

end CrawlCluster.Store
