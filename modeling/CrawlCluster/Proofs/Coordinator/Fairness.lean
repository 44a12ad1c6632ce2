import CrawlCluster.Proofs.Coordinator.Arrivals

set_option autoImplicit false

namespace CrawlCluster.Coordinator

variable {s : Settings} {clock : Nat → Int64} {steps : List Step}

section Queueing

variable {store left : Store}

theorem Moved.lined {move : Move} (h : Moved s move store left) (hl : store.Lined) :
    left.Lined := by
  cases h with
  | adopt => exact hl.keep (List.Sublist.refl _) rfl
  | enter now job => exact hl.enqueue now _
  | lease now hqueue => exact hl.keep (by rw [hqueue]; exact List.sublist_cons_self ..) rfl
  | renew => exact hl.keep (List.Sublist.refl _) rfl
  | finish => exact hl.keep (List.Sublist.refl _) rfl
  | drop => exact hl.keep (List.Sublist.refl _) rfl
  | @retry now failed =>
    have hl' : (store.recordFailure failed).Lined := hl.keep (List.Sublist.refl _) rfl
    exact (hl'.enqueue now _).keep (List.Sublist.refl _) rfl

theorem Moves.lined {moves : List Move} (h : Moves s moves store left) (hl : store.Lined) :
    left.Lined := by
  induction h with
  | nil store => exact hl
  | cons first rest ih => exact ih (first.lined hl)

theorem Moved.entered {move : Move} (h : Moved s move store left) {q : Queued}
    (hq : q ∈ left.queue) : q ∈ store.queue ∨ store.nextSeq ≤ q.seq := by
  have hinsert : ∀ entry : Queued, q ∈ Store.insertQueued entry store.queue →
      entry.seq = store.nextSeq → q ∈ store.queue ∨ store.nextSeq ≤ q.seq := by
    intro entry hmem hseq
    rcases List.mem_cons.1 ((Store.insertQueued_perm entry store.queue).mem_iff.1 hmem) with
      rfl | hmem
    · exact .inr (Nat.le_of_eq hseq.symm)
    · exact .inl hmem
  cases h with
  | enter now job => exact hinsert _ hq rfl
  | lease now hqueue => exact .inl (hqueue ▸ List.mem_cons_of_mem _ hq)
  | retry now => exact hinsert _ hq rfl
  | _ => exact .inl hq

theorem Moves.entered {moves : List Move} (h : Moves s moves store left) {q : Queued}
    (hq : q ∈ left.queue) : q ∈ store.queue ∨ store.nextSeq ≤ q.seq := by
  induction h with
  | nil store => exact .inl hq
  | cons first rest ih =>
    rcases ih hq with hnext | hlater
    · exact first.entered hnext
    · exact .inr (Nat.le_trans (first.nextSeq ▸ Nat.le_add_right ..) hlater)

/-- The job handed out stands in front. -/
theorem Transition.serves [ScanOrder] {now : Int64} {b left : Books} {id url : String}
    {leaseTime timeout : Int64} (h : Transition s now .takeJob
      (.ok (.assignment (.spider id url leaseTime timeout))) b left) :
    ∃ q rest, b.store.queue = q :: rest ∧ q.job.id = id ∧ q.job.url = url ∧
      q.job.timeout = timeout := by
  cases h with
  | leased hdepth hmove =>
    cases hmove with
    | lease now hqueue => exact ⟨_, _, hqueue, rfl, rfl, rfl⟩

end Queueing

/-- The priority a job is stored with: that of the upload against the clock, as near as 64 bits
come to it. -/
def Arrival.rank (a : Arrival) : Int64 :=
  Clock.nearest (a.reading.toInt - a.entry.priority.toInt)

/-- The difference is in the range of 64 bits. -/
def Arrival.Exact (a : Arrival) : Prop :=
  a.rank.toInt = a.reading.toInt - a.entry.priority.toInt

theorem rank_le {a b : Arrival} (hreading : a.reading ≤ b.reading)
    (hpriority : b.entry.priority ≤ a.entry.priority) : a.rank ≤ b.rank := by
  rw [Int64.le_iff_toInt_le] at *
  rw [Arrival.rank, Arrival.rank, Clock.toInt_nearest, Clock.toInt_nearest]
  omega

theorem rank_lt {a b : Arrival} (hpriority : a.entry.priority = b.entry.priority)
    (hreading : a.reading < b.reading) (ha : a.Exact) (hb : b.Exact) : a.rank < b.rank := by
  rw [Int64.lt_iff_toInt_lt] at *
  rw [Arrival.Exact] at ha hb
  rw [ha, hb, hpriority]
  omega

namespace Course

section

variable [ScanOrder]

theorem run_lined (s : Settings) (clock : Nat → Int64) (steps : List Step) :
    (run s clock steps).books.store.Lined := by
  induction steps using List.reverseRecOn with
  | nil => exact Store.lined_empty
  | append_singleton steps last ih =>
    rw [run_snoc]
    exact ((run_sound s clock steps).made last).lined ih

theorem run_entered (s : Settings) (clock : Nat → Int64) (steps more : List Step) :
    let store := (run s clock steps).books.store
    let later := (run s clock (steps ++ more)).books.store
    store.nextSeq ≤ later.nextSeq ∧
      ∀ q ∈ later.queue, q ∈ store.queue ∨ store.nextSeq ≤ q.seq := by
  induction more using List.reverseRecOn with
  | nil =>
    rw [List.append_nil]
    exact ⟨Nat.le_refl _, fun q hq => .inl hq⟩
  | append_singleton more last ih =>
    have hmade := (run_sound s clock (steps ++ more)).made (s := s) last
    rw [← List.append_assoc, run_snoc]
    refine ⟨Nat.le_trans ih.1 (hmade.nextSeq ▸ Nat.le_add_right ..), ?_⟩
    intro q hq
    rcases hmade.entered hq with hnext | hlater
    · exact ih.2 q hnext
    · exact .inr (Nat.le_trans ih.1 hlater)

theorem Sound.serves {c : Course} (hc : c.Sound) {now : Int64} {id url : String}
    {leaseTime timeout : Int64}
    (h : (c.ask s ⟨.takeJob, now⟩).1 =
      .ok (.assignment (.spider id url leaseTime timeout))) :
    ∃ q rest, c.books.store.queue = q :: rest ∧ q.job.id = id ∧ q.job.url = url ∧
      q.job.timeout = timeout := by
  have hcomes := hc.comes (s := s) ⟨.takeJob, now⟩
  rw [h] at hcomes
  exact ((Operation.comes_ok rfl).1 hcomes).serves

/-- The job that came in as `a`, `i` others before it, is queued as `q`. -/
structure Queues (s : Settings) (clock : Nat → Int64) (steps : List Step) (i : Nat) (a : Arrival)
    (q : Queued) : Prop where
  queued : q ∈ (run s clock steps).books.store.queue
  arrival : (arrivals s clock steps)[i]? = some a
  thread : ∃ t, (threads s clock steps)[i]? = some t ∧ t.now? = some q.job.id

def Serves (s : Settings) (c : Course) (job : Job) : Prop :=
  ∃ now leaseTime, (c.ask s ⟨.takeJob, now⟩).1 =
    .ok (.assignment (.spider job.id job.url leaseTime job.timeout))

variable {i j : Nat} {a b : Arrival} {q r : Queued}

theorem Queues.leads (h : Queues s clock steps i a q) :
    ∃ t, t.now? = some q.job.id ∧ a.Leads s (run s clock steps).books.store t := by
  obtain ⟨t, ht, hnow⟩ := h.thread
  exact ⟨t, hnow, (run_recorded s clock steps).leads i a t h.arrival ht⟩

theorem Queues.row_mem (h : Queues s clock steps i a q) :
    q.job.unleased ∈ (run s clock steps).books.store.rows :=
  List.mem_map_of_mem (List.mem_append_left _ (List.mem_map_of_mem h.queued))

theorem Queues.priority (h : Queues s clock steps i a q) : q.job.priority = a.rank := by
  obtain ⟨t, hnow, hleads⟩ := h.leads
  exact congrArg Work.priority (hleads.kept.row _ h.row_mem hnow).1

/-- A job that was not put back yet stands under the number it came in under. -/
theorem Queues.seq (h : Queues s clock steps i a q) (hfirst : q.job.retries = 0) :
    q.seq = a.seq := by
  obtain ⟨t, hnow, hleads⟩ := h.leads
  have hcount : q.job.retries.toNat = t.failures.length := (hleads.kept.row _ h.row_mem hnow).2
  have hnone : t.failures = [] := by
    rw [hfirst] at hcount
    exact List.length_eq_zero_iff.1 hcount.symm
  have hid : Store.jobId a.seq = q.job.id := by
    simpa [Thread.now?, (Thread.now?_eq_some_iff.1 hnow).1, hleads.first hnone] using hnow
  rw [(run_lined s clock steps).named q h.queued] at hid
  exact (Store.jobId_injective hid).symm

theorem not_serves_of_precedes (hq : q ∈ (run s clock steps).books.store.queue)
    (hr : r ∈ (run s clock steps).books.store.queue) (h : q.precedes r = true) :
    ¬ Serves s (run s clock steps) r.job := by
  rintro ⟨now, leaseTime, hserved⟩
  obtain ⟨first, rest, hqueue, hid, -⟩ := (run_sound s clock steps).serves hserved
  have hfront := (run_lined s clock steps).front hqueue
  have hids : ((run s clock steps).books.store.queue.map (·.job.id)).Nodup :=
    (List.nodup_append.1 (run_sound s clock steps).distinct.nodup).1
  have hfirst : first ∈ (run s clock steps).books.store.queue := by
    rw [hqueue]
    exact List.mem_cons_self ..
  obtain rfl := List.inj_on_of_nodup_map hids hfirst hr hid
  have hbehind := Queued.not_precedes h
  rcases List.mem_cons.1 (hqueue ▸ hq) with rfl | hq
  · rw [h] at hbehind
    contradiction
  · rw [hfront q hq] at hbehind
    contradiction

/-- Every queued job is one that came in. -/
theorem exists_queues (hq : q ∈ (run s clock steps).books.store.queue) :
    ∃ i a, Queues s clock steps i a q := by
  have hrecorded := run_recorded s clock steps
  have hid : q.job.id ∈ (run s clock steps).books.store.ids :=
    List.mem_append_left _ (List.mem_map.2 ⟨q, hq, rfl⟩)
  obtain ⟨t, ht, hnow⟩ := List.mem_filterMap.1
    ((run_followed s clock steps).woven.placed.mem_iff.1 hid)
  obtain ⟨i, hi⟩ := List.mem_iff_getElem?.1 ht
  have hentry := congrArg (·[i]?) hrecorded.entries
  simp only [List.getElem?_map, hi, Option.map_some] at hentry
  obtain ⟨a, ha, -⟩ := Option.map_eq_some_iff.1 hentry
  exact ⟨i, a, hq, ha, t, hi, hnow⟩

/-- Jobs are served in the order of the priorities they were stored with, and of entering the queue
where these tie. A job that came in was stored with its priority against the clock, and has that
priority however often it is put back. So of two queued jobs that were not put back yet, the one
that came sooner, at no later a reading and with no smaller a priority, goes first; and of two with
one priority, the one that came at an earlier reading does, put back or not, unless the limits of
the numbers were in the way. -/
theorem served_in_order (s : Settings) (clock : Nat → Int64) (steps more : List Step) :
    let c := run s clock steps
    let queue := c.books.store.queue
    let later := run s clock (steps ++ more)
    (∀ now id url leaseTime timeout,
      (c.ask s ⟨.takeJob, now⟩).1 = .ok (.assignment (.spider id url leaseTime timeout)) →
      ∃ q ∈ queue, q.job.id = id ∧ q.job.url = url ∧ q.job.timeout = timeout ∧
        ∀ other ∈ queue, other = q ∨ q.precedes other = true) ∧
    (∀ q ∈ queue, q.seq < c.books.store.nextSeq) ∧
    (∀ q ∈ later.books.store.queue, q ∈ queue ∨ c.books.store.nextSeq ≤ q.seq) ∧
    (arrivals s clock steps).map (·.entry) = c.past.flatMap (Entry.taken s) ∧
    arrivals s clock steps <+: arrivals s clock (steps ++ more) ∧
    (∀ (i : Nat) (a : Arrival), (arrivals s clock steps)[i]? = some a → ∃ t t',
      (threads s clock steps)[i]? = some t ∧ (threads s clock (steps ++ more))[i]? = some t' ∧
      t.Precedes t' ∧ ∀ job, t.Bears c.books.store job ∨ t'.Bears later.books.store job →
        job.priority = Clock.nearest (a.reading.toInt - a.entry.priority.toInt)) ∧
    (∀ q ∈ queue, ∃ i a, Queues s clock steps i a q) ∧
    (∀ i j a b q r, Queues s clock steps i a q → Queues s clock steps j b r →
      (i < j ∧ q.job.retries = 0 ∧ r.job.retries = 0 ∧ a.reading ≤ b.reading ∧
          b.entry.priority ≤ a.entry.priority) ∨
        (a.entry.priority = b.entry.priority ∧ a.reading < b.reading ∧ a.Exact ∧ b.Exact) →
      q.precedes r = true ∧ ¬ Serves s c r.job) := by
  intro c queue later
  have hrecorded := run_recorded s clock steps
  have hentered := run_entered s clock steps more
  have hlined := run_lined s clock steps
  refine ⟨?_, hlined.numbered, hentered.2, ?_, ?_, ?_, fun q hq => exists_queues hq, ?_⟩
  · intro now id url leaseTime timeout hserved
    obtain ⟨q, rest, hqueue, hid, hurl, htimeout⟩ := (run_sound s clock steps).serves hserved
    have hfront := hlined.front hqueue
    have hmem : ∀ other, other ∈ queue ↔ other = q ∨ other ∈ rest := by
      intro other
      rw [show queue = q :: rest from hqueue, List.mem_cons]
    refine ⟨q, (hmem q).2 (.inl rfl), hid, hurl, htimeout, ?_⟩
    intro other hother
    exact ((hmem other).1 hother).imp_right (hfront other)
  · exact hrecorded.entries.trans (threads_entries s clock steps)
  · rw [arrivals_append]
    exact List.prefix_append ..
  · intro i a ha
    have hentry := congrArg (·[i]?) hrecorded.entries
    simp only [List.getElem?_map, ha, Option.map_some] at hentry
    obtain ⟨t, ht, -⟩ := Option.map_eq_some_iff.1 hentry.symm
    have hkept := (hrecorded.leads i a t ha ht).kept
    obtain ⟨t', ht', hprecedes, hkept'⟩ := threads_later s clock steps more ht hkept
    refine ⟨t, t', ht, ht', hprecedes, ?_⟩
    rintro job (hjob | hjob)
    · exact congrArg Work.priority (hkept.bears hjob)
    · exact congrArg Work.priority (hkept'.bears hjob)
  · intro i j a b q r hq hr hsooner
    have hprecedes : q.precedes r = true := by
      rw [Queued.precedes_iff, hq.priority, hr.priority]
      rcases hsooner with ⟨hij, hfirst, hfirst', hreading, hpriority⟩ |
        ⟨hpriority, hreading, hexact, hexact'⟩
      · rw [hq.seq hfirst, hr.seq hfirst']
        have hseq := hrecorded.ordered i j a b hij hq.arrival hr.arrival
        rcases Int64.lt_or_eq_of_le (rank_le hreading hpriority) with hlt | heq
        · exact .inl hlt
        · exact .inr ⟨heq, hseq⟩
      · exact .inl (rank_lt hpriority hreading hexact hexact')
    exact ⟨hprecedes, not_serves_of_precedes hq.queued hr.queued hprecedes⟩

end

def overtaking : List Step :=
  [⟨.uploadJobs "https://a?5?10\n", 1000⟩, ⟨.uploadJobs "https://b?5?10\n", 1001⟩,
    ⟨.takeJob, 1002⟩, ⟨.sweep 1000000, 1000000⟩]

/-- The job put back entered the queue last, and is served first. -/
theorem served_in_order_overtaking :
    let s : Settings := { minQueued := 1 }
    let clock := fun n => 1000 + Int64.ofNat n
    let c := run s clock overtaking
    ∃ q r, Queues s clock overtaking 0 ⟨⟨"https://a", 5, some 10⟩, 1000, 0⟩ q ∧
      Queues s clock overtaking 1 ⟨⟨"https://b", 5, some 10⟩, 1001, 1⟩ r ∧
      r.seq < q.seq ∧ q.precedes r = true ∧ ¬ Serves s c r.job := by
  intro s clock c
  let a : Arrival := ⟨⟨"https://a", 5, some 10⟩, 1000, 0⟩
  let b : Arrival := ⟨⟨"https://b", 5, some 10⟩, 1001, 1⟩
  let q : Queued := ⟨2, ⟨"job-2", 0, 10, 995, "https://a", 1⟩⟩
  let r : Queued := ⟨1, ⟨"job-1", 0, 10, 996, "https://b", 0⟩⟩
  have hq : Queues s clock overtaking 0 a q := by
    refine ⟨by decide +kernel, by decide +kernel, ?_⟩
    have hnow : (threads s clock overtaking)[0]?.bind (·.now?) = some "job-2" := by
      decide +kernel
    exact Option.bind_eq_some_iff.1 hnow
  have hr : Queues s clock overtaking 1 b r := by
    refine ⟨by decide +kernel, by decide +kernel, ?_⟩
    have hnow : (threads s clock overtaking)[1]?.bind (·.now?) = some "job-1" := by
      decide +kernel
    exact Option.bind_eq_some_iff.1 hnow
  have hsooner : a.entry.priority = b.entry.priority ∧ a.reading < b.reading ∧ a.Exact ∧ b.Exact :=
    ⟨rfl, by decide, by unfold Arrival.Exact; decide, by unfold Arrival.Exact; decide⟩
  obtain ⟨-, -, -, -, -, -, -, hserved⟩ := served_in_order s clock overtaking []
  exact ⟨q, r, hq, hr, by decide, hserved 0 1 a b q r hq hr (.inr hsooner)⟩

end Course
end CrawlCluster.Coordinator
