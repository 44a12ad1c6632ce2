import CrawlCluster.Proofs.Store.Table

set_option autoImplicit false

namespace CrawlCluster

namespace Job

variable {job : Job} {now : Int64}

theorem isExpired_iff_stopped : job.isExpired now = true ↔
    max (-0x8000000000000000) (min (job.leaseTime.toInt +
      max (-0x8000000000000000) (min (job.timeout.toInt * 1000) 0x7FFFFFFFFFFFFFFF))
        0x7FFFFFFFFFFFFFFF) < now.toInt := by
  rw [isExpired, decide_eq_true_iff, Int64.lt_iff_toInt_lt, Clock.toInt_nearest,
    Clock.toInt_nearest]

/-- A timeout that stops at the upper end gives an instant no clock gets past, one that stops at
the lower end an instant before the epoch, and so would the true sum. -/
theorem isExpired_iff (htime : 0 ≤ job.leaseTime) (hnow : 0 ≤ now) :
    job.isExpired now = true ↔
      job.leaseTime.toInt + 1000 * job.timeout.toInt < now.toInt := by
  have htime : 0 ≤ job.leaseTime.toInt := Int64.le_iff_toInt_le.1 htime
  have hnow : 0 ≤ now.toInt := Int64.le_iff_toInt_le.1 hnow
  have hlast := now.toInt_lt
  have htop := job.leaseTime.toInt_lt
  rw [isExpired_iff_stopped]
  omega

theorem isExpired_later {later : Int64} (hlater : now ≤ later) (h : job.isExpired now = true) :
    job.isExpired later = true := by
  rw [isExpired_iff_stopped] at h ⊢
  exact Int.lt_of_lt_of_le h (Int64.le_iff_toInt_le.1 hlater)

/-- A renewed lease that has run out would have run out without the renewal as well. -/
theorem not_isExpired_renewed {leaseTime : Int64} (hrenewed : job.leaseTime ≤ leaseTime)
    (h : job.isExpired now = false) : ({ job with leaseTime } : Job).isExpired now = false := by
  rw [Bool.eq_false_iff, ne_eq, isExpired_iff_stopped] at h ⊢
  have hrenewed := Int64.le_iff_toInt_le.1 hrenewed
  dsimp only
  omega

end Job

namespace Store

variable {s : Store} {now : Int64}

/-- A store after any calls at any times, as long as its lease times can still be outdone. -/
inductive Reached [ScanOrder] : Store → Prop where
  | fresh : Reached {}
  | call {s : Store} (h : Reached s) (hroom : s.lastLease < Int64.maxValue) (now : Int64)
    (call : StoreCall) : Reached (s.perform now call).2

structure Dated (s : Store) : Prop where
  ordered : Ordered s.current
  lastLease : 0 ≤ s.lastLease
  current : ∀ job ∈ s.current, 0 ≤ job.leaseTime

theorem Dated.grant (h : s.Dated) (hroom : s.lastLease < Int64.maxValue) (now : Int64)
    (job : Job) : (s.grant now job).Dated := by
  have hlater : 0 ≤ s.grantTime now :=
    Int64.le_trans h.lastLease (Int64.le_of_lt (lastLease_lt_grantTime hroom))
  refine ⟨ordered_putLease h.ordered, hlater, fun row hrow => ?_⟩
  rcases (mem_putLease h.ordered).1 hrow with rfl | ⟨hrow, -⟩
  · exact hlater
  · exact h.current row hrow

theorem Dated.perform [ScanOrder] (h : s.Dated) (hroom : s.lastLease < Int64.maxValue) (now : Int64)
    (call : StoreCall) : (s.perform now call).2.Dated := by
  obtain ⟨hordered, hlast, hcurrent⟩ := h
  cases call with
  | grant job => exact Dated.grant ⟨hordered, hlast, hcurrent⟩ hroom now job
  | retire id =>
    exact ⟨hordered.filter _, hlast, fun row hrow => hcurrent row (List.mem_filter.1 hrow).1⟩
  | takeTop =>
    simp only [Store.perform, takeTop]
    cases s.queue <;> exact ⟨hordered, hlast, hcurrent⟩
  | leased id =>
    simp only [Store.perform]
    cases s.leased? id <;> exact ⟨hordered, hlast, hcurrent⟩
  | _ => exact ⟨hordered, hlast, hcurrent⟩

theorem Reached.dated [ScanOrder] (h : Reached s) : s.Dated := by
  induction h with
  | fresh => exact ⟨.nil, Int64.le_refl 0, by simp⟩
  | call h hroom now call ih => exact ih.perform hroom now call

theorem reading_nonneg (ms : Int) : 0 ≤ Clock.reading ms := by
  rw [Int64.le_iff_toInt_le, Clock.toInt_reading]
  exact Int.le_max_left ..

/-- A lease has run out just if the time it was granted at and its timeout, added up without bound,
lie before now. So it stays run out as time goes on, and no renewal makes it run out. The times
this asks for, none before the epoch, are those that clocks show and stores grant. -/
theorem expiry_exact [ScanOrder] :
    (∀ (job : Job) (now : Int64), 0 ≤ job.leaseTime → 0 ≤ now →
      (job.isExpired now = true ↔
        job.leaseTime.toInt + 1000 * job.timeout.toInt < now.toInt)) ∧
    (∀ (job : Job) (now later : Int64), now ≤ later → job.isExpired now = true →
      job.isExpired later = true) ∧
    (∀ (job : Job) (leaseTime now : Int64), job.leaseTime ≤ leaseTime →
      job.isExpired now = false → ({ job with leaseTime } : Job).isExpired now = false) ∧
    (∀ ms : Int, 0 ≤ Clock.reading ms) ∧
    ∀ s : Store, Reached s → ∀ job ∈ s.current, 0 ≤ job.leaseTime :=
  ⟨fun _ _ htime hnow => Job.isExpired_iff htime hnow,
    fun _ _ _ hlater hexpired => Job.isExpired_later hlater hexpired,
    fun _ _ _ hrenewed hrunning => Job.not_isExpired_renewed hrenewed hrunning,
    reading_nonneg, fun _ hs => hs.dated.current⟩

/-- The longest timeout on a lease granted at the last instant, the most negative one, and a store
whose clock was before the epoch. -/
theorem expiry_exact_extreme :
    let long : Job :=
      { id := "job-0", url := "https://x", leaseTime := Int64.maxValue, timeout := Int64.maxValue }
    let past : Job := { long with timeout := Int64.minValue }
    let store := (({} : Store).perform (-1000) (.grant past)).2
    (long.isExpired Int64.maxValue = true ↔
        long.leaseTime.toInt + 1000 * long.timeout.toInt < Int64.maxValue.toInt) ∧
      (past.isExpired 1 = true ↔
        past.leaseTime.toInt + 1000 * past.timeout.toInt < (1 : Int64).toInt) ∧
      past.isExpired 1000 = true ∧ long.isExpired 1000 = false ∧
      ∀ job ∈ store.current, 0 ≤ job.leaseTime := by
  intro long past store
  obtain ⟨hexact, hlater, hrenewed, -, hstore⟩ := expiry_exact
  have hlong : (0 : Int64) ≤ long.leaseTime := by decide
  have hpast : past.isExpired 1 = true := by decide
  have hrunning : ({ long with leaseTime := 1 } : Job).isExpired 1000 = false := by decide
  have hreached : Reached store := .call .fresh (by decide) (-1000) (.grant past)
  exact ⟨hexact long Int64.maxValue hlong (by decide), hexact past 1 hlong (by decide),
    hlater past 1 1000 (by decide) hpast,
    hrenewed { long with leaseTime := 1 } Int64.maxValue 1000 (by decide) hrunning,
    hstore store hreached⟩

end Store
end CrawlCluster
