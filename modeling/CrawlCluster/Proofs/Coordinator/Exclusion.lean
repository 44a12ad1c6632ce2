import CrawlCluster.Proofs.Coordinator.Custody

set_option autoImplicit false

namespace CrawlCluster.Coordinator

section Logs

variable {s : Settings} {lease : Lease}

theorem seen_of_passed {log : List Deed} (h : lease ∈ passed s log) :
    ∃ seen ∈ log, lease ∈ seen.shown := by
  induction log with
  | nil => simp [passed] at h
  | cons deed earlier ih =>
    rcases List.mem_append.1 h with hchecked | hearlier
    · have hchecked := (Option.filter_eq_some_iff.1 (Option.mem_toList.1 hchecked)).1
      exact ⟨deed, by simp, List.mem_append_left _ (Option.mem_toList.2 hchecked)⟩
    · obtain ⟨seen, hseen, hshown⟩ := ih hearlier
      exact ⟨seen, List.mem_cons_of_mem _ hseen, hshown⟩

theorem Outdated.append {log : List Deed} (h : Outdated lease log) (later : List Deed) :
    Outdated lease (later ++ log) := by
  induction later with
  | nil => exact h
  | cons deed later ih => exact .inl ih

theorem outdated_of_written {between earlier : List Deed} {scan written : Deed}
    (hscan : lease ∈ scan.shown) (hmem : written ∈ between)
    (hwritten : written.written? = some lease.jobId) :
    Outdated lease (between ++ scan :: earlier) := by
  induction between with
  | nil => simp at hmem
  | cons deed between ih =>
    rcases List.mem_cons.1 hmem with rfl | hmem
    · exact .inr ⟨hwritten, scan, by simp, hscan⟩
    · exact .inl (ih hmem)

theorem Lawful.of_append [ScanOrder] {later log : List Deed}
    (h : Lawful s (later ++ log)) : Lawful s log := by
  induction later with
  | nil => exact h
  | cons deed later ih => exact ih h.1

theorem Fresh.of_append {later log : List Deed} (h : Fresh (later ++ log)) : Fresh log := by
  induction later with
  | nil => exact h
  | cons deed later ih => exact ih h.1

theorem Grip.entitled_of_reclaims {grip : Grip} {deed : Deed} {id : String}
    (hallows : grip.Allows deed.action) (h : deed.reclaimed? = some id) :
    grip.Entitled id := by
  obtain ⟨_, _, action, reply⟩ := deed
  cases action with
  | ask call =>
    cases call with
    | recordFailure failed =>
      obtain rfl := Option.some.inj h
      exact hallows
    | retire retired =>
      obtain rfl := Option.some.inj h
      exact hallows
    | _ => cases h
  | _ => cases h

theorem nodup_listed [ScanOrder] {deed : Deed} (h : deed.action.Heard deed.reply) :
    (deed.listed.map (·.jobId)).Nodup := by
  by_cases hlisted : deed.listed = []
  · simp [hlisted]
  · obtain ⟨lease, hlease⟩ := List.exists_mem_of_ne_nil _ hlisted
    obtain ⟨jobs, hdeed, hjobs⟩ := Deed.eq_of_listed hlease
    rw [hdeed] at h
    obtain ⟨store, left, hordered, ⟨now, hperform⟩, -⟩ := h
    obtain rfl := Except.ok.inj (Prod.mk.inj hperform).1
    rw [hjobs, List.map_map]
    exact hordered.nodup_scan

def Consistent (call : Nat) (operation : Operation) (log : List Deed) : Prop :=
  ∀ deed ∈ log, deed.call = call → deed.operation = operation

theorem Consistent.of_append {call : Nat} {operation : Operation} {later log : List Deed}
    (h : Consistent call operation (later ++ log)) : Consistent call operation log :=
  fun deed hdeed => h deed (List.mem_append_right _ hdeed)

variable {call : Nat} {operation : Operation}

theorem allows_of_lawful [ScanOrder] {deed : Deed} {log : List Deed} (h : Lawful s (deed :: log))
    (hcons : Consistent call operation (deed :: log)) (hown : deed.call = call) :
    (grip s call operation log).Allows deed.action := by
  have hallows := h.2.1
  rwa [hown, hcons deed (by simp) hown] at hallows

/-- A call goes through the table once, and speaks of the leases it came upon then. -/
theorem known_of_scan [ScanOrder] {between earlier : List Deed} {scan : Deed}
    (hcall : scan.call = call) (hlawful : Lawful s (between ++ scan :: earlier))
    (hcons : Consistent call operation (between ++ scan :: earlier))
    (hscan : lease ∈ scan.listed) :
    (grip s call operation (between ++ scan :: earlier)).known = scan.listed := by
  induction between with
  | nil =>
    have hallows := allows_of_lawful hlawful hcons hcall
    rw [List.nil_append, grip_cons_self hcall, Grip.known_next,
      Grip.known_of_listed hallows hscan, List.append_nil]
  | cons deed between ih =>
    rw [List.cons_append] at hlawful hcons ⊢
    have hbefore := ih hlawful.1 fun other hother => hcons other (List.mem_cons_of_mem _ hother)
    by_cases hown : deed.call = call
    · have hknown : (grip s call operation (between ++ scan :: earlier)).known ≠ [] := by
        rw [hbefore]
        exact List.ne_nil_of_mem hscan
      rw [grip_cons_self hown,
        Grip.known_next_of_ne (allows_of_lawful hlawful hcons hown) hknown, hbefore]
    · rw [grip_cons_other hown]
      exact hbefore

/-- A check that comes after the row was written sends the call away. -/
theorem refused_of_outdated {check : Deed} {log : List Deed} (hcall : check.call = call)
    (hcheck : check.action = .ask (.leaseTime lease.jobId)) (hfresh : Fresh (check :: log))
    (houtdated : Outdated lease log)
    (hsole : Sole lease (grip s call operation log).known) :
    (grip s call operation (check :: log)).leases = some .refused := by
  rw [grip_cons_self hcall]
  refine Grip.refused_next hcheck ?_
  intro other hother hknown
  have hid : other.jobId = lease.jobId := by
    have haction := congrArg Deed.action (Deed.eq_of_checked hother)
    rw [hcheck] at haction
    injection haction with haction
    injection haction with haction
    exact haction.symm
  obtain rfl := hsole.2 other hknown hid
  exact hfresh.2 other (List.mem_append_left _ (Option.mem_toList.2 hother)) houtdated

/-- From then on the call has no say over the job of the lease. -/
theorem not_entitled_of_outdated [ScanOrder] {check : Deed} {later log : List Deed}
    (hcall : check.call = call) (hcheck : check.action = .ask (.leaseTime lease.jobId))
    (hlawful : Lawful s (later ++ check :: log))
    (hcons : Consistent call operation (later ++ check :: log))
    (hfresh : Fresh (later ++ check :: log)) (houtdated : Outdated lease log)
    (hsole : Sole lease (grip s call operation log).known) :
    ¬(grip s call operation (later ++ check :: log)).Entitled lease.jobId ∧
      (grip s call operation (later ++ check :: log)).known =
        (grip s call operation log).known := by
  have hknown : (grip s call operation log).known ≠ [] := List.ne_nil_of_mem hsole.1
  induction later with
  | nil =>
    refine ⟨?_, ?_⟩
    · rintro ⟨other, hpassed, -⟩
      rw [List.nil_append, refused_of_outdated hcall hcheck hfresh houtdated hsole] at hpassed
      cases hpassed
    · rw [List.nil_append, grip_cons_self hcall]
      exact Grip.known_next_of_ne (allows_of_lawful hlawful hcons hcall) hknown
  | cons deed later ih =>
    rw [List.cons_append] at hlawful hcons hfresh ⊢
    obtain ⟨hbefore, hsame⟩ := ih hlawful.1
      (fun other hother => hcons other (List.mem_cons_of_mem _ hother)) hfresh.1
    by_cases hown : deed.call = call
    · have hallows := allows_of_lawful hlawful hcons hown
      rw [grip_cons_self hown]
      refine ⟨?_, (Grip.known_next_of_ne hallows (hsame ▸ hknown)).trans hsame⟩
      rintro ⟨other, hpassed, hid⟩
      rcases Grip.passed_of_next deed hallows hpassed with ⟨hother, -⟩ | ⟨hchecked, hmem⟩
      · exact hbefore ⟨other, hother, hid⟩
      · rw [hsame] at hmem
        obtain rfl := hsole.2 other hmem hid
        exact hfresh.2 other (List.mem_append_left _ (Option.mem_toList.2 hchecked))
          (Outdated.append (show Outdated other (check :: log) from .inl houtdated) later)
    · rw [grip_cons_other hown]
      exact ⟨hbefore, hsame⟩

end Logs

theorem Deed.leased?_of_missed [ScanOrder] (deed : Deed) {store left : Store} {id : String}
    (hdoes : deed.action.Does deed.reply store left) (h : deed.missed? = some id) :
    store.leased? id = none := by
  unfold missed? at h
  split at h
  · obtain rfl := Option.some.inj h
    obtain ⟨⟨now, hperform⟩, -⟩ := hdoes
    simp only [Store.perform] at hperform
    split at hperform
    · simp at hperform
    · next hnone => exact hnone
  · contradiction

namespace Crew

/-- A lease that the check was passed with was written since, or its call is about to. -/
structure Exclusive (s : Settings) (c : Crew) : Prop where
  nodup : (passed s c.log).Nodup
  spent : ∀ lease ∈ passed s c.log, Outdated lease c.log ∨
    ∃ call operation, c.Has call operation ∧
      (grip s call operation c.log).leases = some (.passed lease)

variable {s : Settings} {taken : Option Job} {c left : Crew}

namespace Exclusive

theorem enter (h : Exclusive s c) (operation : Operation) : Exclusive s (c.enter s operation) := by
  refine ⟨h.nodup, ?_⟩
  intro lease hlease
  refine (h.spent lease hlease).imp_right ?_
  rintro ⟨call, other, hhas, hpassed⟩
  exact ⟨call, other, (has_enter operation other call).2 (.inl hhas), hpassed⟩

variable [ScanOrder]

section Advance

variable {call : Nat} {operation : Operation} {action : Action}
variable {next : action.Reply → Program Answer} {reply : action.Reply} {state : State Store}

theorem spent_advance (h : Exclusive s c) (next : action.Reply → Program Answer)
    (hkept : Kept s taken c)
    (hcall : c.Has call operation) (hallows : (grip s call operation c.log).Allows action)
    (hdoes : action.Does reply c.state.store state.store) {lease : Lease}
    (hlease : lease ∈ passed s c.log) :
    Outdated lease (⟨call, operation, action, reply⟩ :: c.log) ∨
      ∃ other operation', (c.advance call operation next reply state).Has other operation' ∧
        (grip s other operation' (c.advance call operation next reply state).log).leases =
          some (.passed lease) := by
  rcases h.spent lease hlease with houtdated | ⟨other, operation', hother, hpassed⟩
  · exact .inl (.inl houtdated)
  · by_cases hne : other = call
    · subst hne
      obtain rfl := hcall.unique hother
      have hcases := Grip.passed_next ⟨other, operation, action, reply⟩ hallows hpassed
      rcases hcases with hstill | hwritten | hmissed
      · refine .inr ⟨other, operation, (has_advance hcall).2 hcall, ?_⟩
        rw [grip_advance_self]
        exact hstill
      · exact .inl (.inr ⟨hwritten, seen_of_passed hlease⟩)
      · have hnone := Deed.leased?_of_missed ⟨other, operation, action, reply⟩ hdoes hmissed
        exact absurd hnone (hkept.entitled other operation _ hcall ⟨lease, hpassed, rfl⟩)
    · refine .inr ⟨other, operation', (has_advance hcall).2 hother, ?_⟩
      rw [grip_advance_other hne]
      exact hpassed

/-- Whoever passes is the first with the lease: a call that passed before has the lock still, or
wrote the row. -/
theorem not_passed (h : Exclusive s c) (hd : c.Disciplined s) (hcall : c.Has call operation)
    (hallows : (grip s call operation c.log).Allows action)
    (hdoes : action.Does reply c.state.store state.store)
    (hfresh : Fresh (⟨call, operation, action, reply⟩ :: c.log)) {lease : Lease}
    (hchecked : Deed.checked? ⟨call, operation, action, reply⟩ = some lease) :
    lease ∉ passed s c.log := by
  intro hlease
  rcases h.spent lease hlease with houtdated | ⟨other, operation', hother, hpassed⟩
  · exact hfresh.2 lease (List.mem_append_left _ (Option.mem_toList.2 hchecked)) houtdated
  · have hunasked := Grip.unasked_of_checked ⟨call, operation, action, reply⟩ hallows hchecked
    have hlive : c.state.store.exhausted = false := hdoes.live (hdoes.live_of_checked hchecked)
    obtain rfl : other = call := hd.sole hlive .leases hother hcall
      (by simp [Grip.Holds, hpassed]) (by simp [Grip.Holds, hunasked])
    obtain rfl := hcall.unique hother
    rw [hpassed] at hunasked
    cases hunasked

theorem advance (h : Exclusive s c) (hd : c.Disciplined s) (hkept : Kept s taken c)
    (hcall : c.Has call operation) (hallows : (grip s call operation c.log).Allows action)
    (hdoes : action.Does reply c.state.store state.store)
    (hfresh : Fresh (⟨call, operation, action, reply⟩ :: c.log)) :
    Exclusive s (c.advance call operation next reply state) := by
  have hspent : ∀ lease ∈ passed s c.log, _ := fun lease hlease =>
    h.spent_advance next hkept hcall hallows hdoes hlease
  cases hpass : (Deed.checked? ⟨call, operation, action, reply⟩).filter
      (· ∈ claims s call operation c.log) with
  | none =>
    have hsame : passed s (c.advance call operation next reply state).log = passed s c.log := by
      simp [Crew.advance, passed, hpass]
    exact ⟨hsame ▸ h.nodup, hsame ▸ hspent⟩
  | some lease =>
    have hmore : passed s (c.advance call operation next reply state).log =
        lease :: passed s c.log := by
      simp [Crew.advance, passed, hpass]
    obtain ⟨hchecked, hclaimed⟩ := Option.filter_eq_some_iff.1 hpass
    rw [← known_grip, decide_eq_true_eq] at hclaimed
    refine ⟨?_, ?_⟩
    · rw [hmore]
      exact List.nodup_cons.2 ⟨h.not_passed hd hcall hallows hdoes hfresh hchecked, h.nodup⟩
    · intro other hother
      rw [hmore] at hother
      rcases List.mem_cons.1 hother with rfl | hother
      · refine .inr ⟨call, operation, (has_advance hcall).2 hcall, ?_⟩
        rw [grip_advance_self]
        exact Grip.passed_next_of_checked ⟨call, operation, action, reply⟩ hchecked
          hclaimed
      · exact hspent other hother

end Advance

theorem step (h : Exclusive s c) (hd : c.Disciplined s) (hkept : Kept s taken c)
    (hfresh : Fresh left.log) (hticked : Ticked s c left) : Exclusive s left := by
  cases hticked with
  | idle => exact h
  | enter operation => exact h.enter operation
  | @advance call operation action next reply state hcall hfree hdoes =>
    have hallows := (hd.obeys call operation _ hcall).1
    exact h.advance hd hkept (has_of_getElem? hcall) hallows hdoes hfresh
  | cutOff call => exact ⟨h.nodup, h.spent⟩

end Exclusive

section Runs

variable [ScanOrder]

theorem run_exclusive (s : Settings) (ticks : List Tick) :
    Sighted (run s ticks).log (run s ticks).state.store ∧ Exclusive s (run s ticks) := by
  have hall : ((run s ticks).Disciplined s ∧ ∃ taken, Kept s taken (run s ticks)) ∧
      Sighted (run s ticks).log (run s ticks).state.store ∧ Exclusive s (run s ticks) := by
    refine run_keeps s (fun c => (c.Disciplined s ∧ ∃ taken, Kept s taken c) ∧
      Sighted c.log c.state.store ∧ Exclusive s c) ?_ ?_ ticks
    · refine ⟨⟨disciplined_empty s, none, kept_empty s⟩, ?_, ?_⟩
      · exact ⟨by simp [Store.held?, Store.leased?], by simp, fun _ h => h.elim, trivial⟩
      · exact ⟨List.nodup_nil, by simp [passed]⟩
    · rintro c left ⟨⟨hd, taken, hkept⟩, hsighted, hexclusive⟩ hticked
      obtain ⟨taken', hkept', -⟩ := hkept.step hd hticked
      have hsighted' := sighted_step hd hsighted hticked
      exact ⟨⟨hd.step hticked, taken', hkept'⟩, hsighted',
        hexclusive.step hd hkept hsighted'.fresh hticked⟩
  exact hall.2

theorem Disciplined.consistent (hd : c.Disciplined s) {deed : Deed} (hdeed : deed ∈ c.log) :
    Consistent deed.call deed.operation c.log := by
  intro other hother hcall
  have hhas := hd.logged other hother
  rw [hcall] at hhas
  exact hhas.unique (hd.logged deed hdeed)

/-- A call that went through the table and came to a lease only after its row was written lets go
of the lock at once, and does nothing to the job. -/
theorem Disciplined.leaves_alone (hd : c.Disciplined s) (hfresh : Fresh c.log)
    {later between earlier : List Deed} {check scan : Deed} {lease : Lease}
    (hlog : c.log = later ++ check :: (between ++ scan :: earlier))
    (hcall : scan.call = check.call) (hscan : lease ∈ scan.listed)
    (hcheck : check.action = .ask (.leaseTime lease.jobId))
    (hwritten : ∃ deed ∈ between, deed.written? = some lease.jobId) :
    (∀ rest deed gap, later = rest ++ deed :: gap → (∀ other ∈ gap, other.call ≠ check.call) →
      deed.call = check.call → deed.action = .release .leases) ∧
    ∀ deed ∈ later, deed.call = check.call → deed.reclaimed? ≠ some lease.jobId := by
  have hcons : Consistent check.call check.operation c.log := hd.consistent (by simp [hlog])
  have hlawful := hd.lawful
  rw [hlog] at hcons hlawful hfresh
  have hbefore : Lawful s (between ++ scan :: earlier) := hlawful.of_append.1
  have houtdated : Outdated lease (between ++ scan :: earlier) := by
    obtain ⟨deed, hdeed, hid⟩ := hwritten
    exact outdated_of_written (List.mem_append_right _ hscan) hdeed hid
  have hsole :
      Sole lease (grip s check.call check.operation (between ++ scan :: earlier)).known := by
    rw [known_of_scan hcall hbefore (fun deed hdeed => hcons deed (by simp [hdeed])) hscan]
    refine ⟨hscan, fun other hother hid => ?_⟩
    exact List.inj_on_of_nodup_map (nodup_listed hbefore.of_append.2.2) hother hscan hid
  -- what came before the check matters only through these two facts
  generalize between ++ scan :: earlier = before at hcons hlawful hfresh houtdated hsole
  refine ⟨?_, ?_⟩
  · rintro rest deed gap rfl hgap hown
    rw [List.append_assoc, List.cons_append] at hlawful hcons hfresh
    have hrefused := refused_of_outdated rfl hcheck hfresh.of_append.1.of_append houtdated hsole
    have hallows := allows_of_lawful hlawful.of_append hcons.of_append hown
    rw [grip_append_others hgap] at hallows
    exact Grip.allows_refused hrefused hallows
  · intro deed hdeed hown hreclaimed
    obtain ⟨rest, gap, rfl⟩ := List.append_of_mem hdeed
    rw [List.append_assoc, List.cons_append] at hlawful hcons hfresh
    have hallows := allows_of_lawful hlawful.of_append hcons.of_append hown
    have hcons' : Consistent check.call check.operation (gap ++ check :: before) :=
      fun other hother => hcons.of_append other (List.mem_cons_of_mem _ hother)
    have hentitled := not_entitled_of_outdated rfl hcheck hlawful.of_append.1 hcons'
      hfresh.of_append.1 houtdated hsole
    exact hentitled.1 (Grip.entitled_of_reclaims hallows hreclaimed)

/-- In every interleaving of the actions of any number of calls: the check is passed at most once
with each lease; once the row of a job is gone from the table of leases, it is not put there again;
and a sweep that finds, by the time it checks a lease it came upon, that the row was written since,
lets go of the lock at once and does nothing to the job. -/
theorem retirement_exclusive (s : Settings) (ticks : List Tick) :
    let c := run s ticks
    (passed s c.log).Nodup ∧
    (∀ more later id, id ∈ c.leased → id ∉ (run s (ticks ++ more)).leased →
      id ∉ (run s (ticks ++ more ++ later)).leased) ∧
    ∀ later check between scan earlier lease,
      c.log = later ++ check :: (between ++ scan :: earlier) →
      scan.call = check.call → lease ∈ scan.listed →
      check.action = .ask (.leaseTime lease.jobId) →
      (∃ deed ∈ between, deed.written? = some lease.jobId) →
      (∀ rest deed gap, later = rest ++ deed :: gap → (∀ other ∈ gap, other.call ≠ check.call) →
        deed.call = check.call → deed.action = .release .leases) ∧
      ∀ deed ∈ later, deed.call = check.call → deed.reclaimed? ≠ some lease.jobId := by
  intro c
  obtain ⟨hsighted, hexclusive⟩ := run_exclusive s ticks
  refine ⟨hexclusive.nodup, ?_, ?_⟩
  · intro more later id hleased hgone
    exact run_not_leased s ticks more later hleased hgone
  · intro later check between scan earlier lease hlog hcall hscan hcheck hwritten
    exact (run_kept s ticks).1.leaves_alone hsighted.fresh hlog hcall hscan hcheck hwritten

end Runs

def overtaken : List Tick :=
  [.enter (.uploadJobs "https://x?1?10\n"), .turn 0 1000, .enter .takeJob] ++
    List.replicate 7 (.turn 1 1000) ++
    [.enter (.sweep 20000), .turn 2 20000, .enter (.renewLease "job-0?1000"), .turn 3 5000,
      .turn 2 20000] ++
    List.replicate 4 (.turn 3 5000) ++ List.replicate 3 (.turn 2 20000)

def reported : List Tick :=
  .enter (.reportJob {} "worker" "job-0?5000?0?") :: List.replicate 7 (.turn 4 6000)

theorem retirement_exclusive_overtaken :
    let s : Settings := { minQueued := 1 }
    let c := run s overtaken
    let job : Job :=
      { id := "job-0", leaseTime := 1000, timeout := 10, priority := 999, url := "https://x" }
    let scan : Deed := ⟨2, .sweep 20000, .ask .leases, .ok [job]⟩
    let check : Deed := ⟨2, .sweep 20000, .ask (.leaseTime "job-0"), .ok (some 5000)⟩
    (passed s c.log = [job.lease] ∧ (passed s c.log).Nodup) ∧
      ("job-0" ∈ c.leased ∧ "job-0" ∉ (run s (overtaken ++ reported)).leased ∧
        "job-0" ∉ (run s (overtaken ++ reported ++ overtaken)).leased) ∧
      c.log = c.log.take 1 ++ check :: ((c.log.drop 2).take 6 ++ scan :: c.log.drop 9) ∧
      (∃ deed ∈ (c.log.drop 2).take 6, deed.written? = some "job-0") ∧
      ∀ deed ∈ c.log.take 1, deed.call = 2 → deed.reclaimed? ≠ some "job-0" := by
  intro s c job scan check
  obtain ⟨honce, hgone, hleft⟩ := retirement_exclusive s overtaken
  have hleased : "job-0" ∈ c.leased := by decide +kernel
  have hreported : "job-0" ∉ (run s (overtaken ++ reported)).leased := by decide +kernel
  have hlog : c.log = c.log.take 1 ++ check :: ((c.log.drop 2).take 6 ++ scan :: c.log.drop 9) := by
    decide +kernel
  have hwritten : ∃ deed ∈ (c.log.drop 2).take 6, deed.written? = some "job-0" := by
    decide +kernel
  have hlisted : job.lease ∈ scan.listed := by decide
  have hkept := (hleft _ check _ scan _ job.lease hlog rfl hlisted rfl hwritten).2
  exact ⟨⟨by decide +kernel, honce⟩,
    ⟨hleased, hreported, hgone reported overtaken "job-0" hleased hreported⟩, hlog, hwritten, hkept⟩

end Crew
end CrawlCluster.Coordinator
