import CrawlCluster.Proofs.Coordinator.Sessions

/-!
What calls see of the table of leases. Lease times only grow, so a lease that was seen, and whose
row was written since, is never seen again, whoever wrote the row and whoever looks.
-/

set_option autoImplicit false

namespace CrawlCluster

namespace Store

variable (now : Int64) {call : StoreCall} {s : Store}

section

variable [ScanOrder]

theorem leased?_perform {id : String} (h : call.written? ≠ some id) :
    (s.perform now call).2.leased? id = s.leased? id := by
  cases call with
  | grant job => exact (leased?_grant now job id s).trans (if_neg fun he => h (congrArg some he))
  | retire retired =>
    exact (leased?_retire retired id s).trans (if_neg fun he => h (congrArg some he.symm))
  | takeTop =>
    simp only [perform, takeTop]
    cases s.queue <;> rfl
  | leased other =>
    simp only [perform]
    cases s.leased? other <;> rfl
  | _ => rfl

omit [ScanOrder] in
theorem held?_eq_of_leased? {left : Store} {lease : Lease}
    (h : left.leased? lease.jobId = s.leased? lease.jobId) : left.held? lease = s.held? lease := by
  rw [held?, held?, h]

/-- A lease that counts after a store call counted before, or is the one just granted. -/
theorem held_perform (call : StoreCall) (s : Store) (lease : Lease)
    (h : (s.perform now call).2.held? lease ≠ none) :
    (call.written? ≠ some lease.jobId ∧ s.held? lease ≠ none) ∨
      ∃ job, call = .grant job ∧ lease.leaseTime = s.grantTime now := by
  by_cases hwrites : call.written? = some lease.jobId
  · right
    cases call with
    | grant job =>
      obtain ⟨row, hrow⟩ := Option.ne_none_iff_exists'.1 h
      obtain ⟨hleased, htime⟩ := held?_eq_some_iff.1 hrow
      have hgrant := (leased?_grant now job lease.jobId s).trans (if_pos (Option.some.inj hwrites))
      rw [show (s.perform now (.grant job)).2 = s.grant now job from rfl, hgrant] at hleased
      obtain rfl := Option.some.inj hleased
      exact ⟨job, rfl, htime.symm⟩
    | retire retired =>
      have hid : lease.jobId = retired := (Option.some.inj hwrites).symm
      have hgone := (leased?_retire retired lease.jobId s).trans (if_pos hid)
      exact absurd (show (s.retire retired).held? lease = none by simp [held?, hgone]) h
    | _ => cases hwrites
  · left
    rw [held?_eq_of_leased? (leased?_perform now hwrites)] at h
    exact ⟨hwrites, h⟩

theorem lastLease_le_perform (h : ∀ job, call = .grant job → s.lastLease < Int64.maxValue) :
    s.lastLease ≤ (s.perform now call).2.lastLease := by
  cases call with
  | grant job => exact Int64.le_of_lt (lastLease_lt_grantTime (h job rfl))
  | takeTop =>
    simp only [perform, takeTop]
    cases s.queue <;> exact Int64.le_refl _
  | leased id =>
    simp only [perform]
    cases s.leased? id <;> exact Int64.le_refl _
  | _ => exact Int64.le_refl _

end

theorem held_of_mem {job : Job} (hs : Ordered s.current) (hmem : job ∈ s.current) :
    s.held? job.lease ≠ none := by
  have hrow : s.held? job.lease = some job :=
    held?_eq_some_iff.2 ⟨(leased?_eq_some_iff hs).2 ⟨hmem, rfl⟩, rfl⟩
  simp [hrow]

end Store

namespace Coordinator

theorem Deed.held_of_shown [ScanOrder] {deed : Deed} {store left : Store} {lease : Lease}
    (hstore : Store.Ordered store.current) (hdoes : deed.action.Does deed.reply store left)
    (h : lease ∈ deed.shown) : store.held? lease ≠ none := by
  rcases List.mem_append.1 h with hchecked | hlisted
  · have hdeed := eq_of_checked (Option.mem_toList.1 hchecked)
    rw [hdeed] at hdoes
    obtain ⟨⟨now, hperform⟩, -⟩ := hdoes
    have hreply := Except.ok.inj (Prod.mk.inj hperform).1
    rw [ne_eq, Store.held?_eq_none_iff, not_not]
    exact hreply
  · obtain ⟨jobs, hdeed, hjobs⟩ := eq_of_listed hlisted
    rw [hdeed] at hdoes
    obtain ⟨⟨now, hperform⟩, -⟩ := hdoes
    obtain rfl := Except.ok.inj (Prod.mk.inj hperform).1
    rw [hjobs] at hlisted
    obtain ⟨job, hjob, rfl⟩ := List.mem_map.1 hlisted
    exact Store.held_of_mem hstore (Store.mem_scan.1 hjob)

theorem Outdated.seen {lease : Lease} {log : List Deed} (h : Outdated lease log) :
    ∃ seen ∈ log, lease ∈ seen.shown := by
  induction log with
  | nil => exact h.elim
  | cons deed earlier ih =>
    obtain ⟨seen, hseen, hshown⟩ := Or.elim h ih And.right
    exact ⟨seen, List.mem_cons_of_mem _ hseen, hshown⟩

/-- No deed shows a lease whose row was written since the lease was seen before. -/
def Fresh : List Deed → Prop
  | [] => True
  | deed :: earlier => Fresh earlier ∧ ∀ lease ∈ deed.shown, ¬Outdated lease earlier

/-- What the log tells about the table, with its lease times and the latest of them. -/
structure Sighted (log : List Deed) (store : Store) : Prop where
  held_le : ∀ lease, store.held? lease ≠ none → lease.leaseTime ≤ store.lastLease
  seen_le : ∀ seen ∈ log, ∀ lease ∈ seen.shown, lease.leaseTime ≤ store.lastLease
  outdated : ∀ lease, Outdated lease log → store.held? lease = none
  fresh : Fresh log

namespace Sighted

variable {log : List Deed} {store left : Store}

theorem ask [ScanOrder] (deed : Deed) {call : StoreCall} (h : Sighted log store)
    (hordered : Store.Ordered store.current) (haction : deed.action = .ask call)
    (hdoes : deed.action.Does deed.reply store left) : Sighted (deed :: log) left := by
  have hshown : ∀ lease ∈ deed.shown, store.held? lease ≠ none := fun lease =>
    Deed.held_of_shown hordered hdoes
  obtain ⟨number, operation, action, reply⟩ := deed
  cases haction
  obtain ⟨⟨now, hperform⟩, hlive⟩ := hdoes
  have hlast : ∀ job, call = .grant job → store.lastLease < Int64.maxValue :=
    (Store.live_of_perform hperform hlive).2
  have hle := Store.lastLease_le_perform now hlast
  have hheld := Store.held_perform now call store
  rw [hperform] at hle hheld
  refine ⟨?_, ?_, ?_, h.fresh, ?_⟩
  · intro lease hafter
    rcases hheld lease hafter with ⟨-, hbefore⟩ | ⟨job, rfl, htime⟩
    · exact Int64.le_trans (h.held_le lease hbefore) hle
    · cases hperform
      rw [htime]
      exact Int64.le_refl _
  · intro seen hseen lease hlease
    refine Int64.le_trans ?_ hle
    rcases List.mem_cons.1 hseen with rfl | hseen
    · exact h.held_le lease (hshown lease hlease)
    · exact h.seen_le seen hseen lease hlease
  · intro lease houtdated
    by_contra hafter
    rcases hheld lease hafter with ⟨hwrites, hbefore⟩ | ⟨job, rfl, htime⟩
    · rcases houtdated with houtdated | ⟨hwritten, -⟩
      · exact hbefore (h.outdated lease houtdated)
      · exact hwrites hwritten
    · obtain ⟨seen, hmem, hshown⟩ := houtdated.elim Outdated.seen And.right
      have hseen := h.seen_le seen hmem lease hshown
      have hgrow : store.lastLease < store.grantTime now :=
        Store.lastLease_lt_grantTime (hlast job rfl)
      rw [htime] at hseen
      exact absurd (Int64.lt_of_lt_of_le hgrow hseen) Int64.lt_irrefl
  · intro lease hlease houtdated
    exact hshown lease hlease (h.outdated lease houtdated)

theorem other {deed : Deed} (h : Sighted log store) (haction : ∀ call, deed.action ≠ .ask call) :
    Sighted (deed :: log) store := by
  obtain ⟨number, operation, action, reply⟩ := deed
  have hnone : Deed.shown ⟨number, operation, action, reply⟩ = [] ∧
      Deed.written? ⟨number, operation, action, reply⟩ = none := by
    cases action with
    | ask call => exact absurd rfl (haction call)
    | _ => exact ⟨rfl, rfl⟩
  obtain ⟨hshown, hwrites⟩ := hnone
  refine ⟨h.held_le, ?_, ?_, h.fresh, by simp [hshown]⟩
  · intro seen hseen lease hlease
    rcases List.mem_cons.1 hseen with rfl | hseen
    · simp [hshown] at hlease
    · exact h.seen_le seen hseen lease hlease
  · rintro lease (houtdated | ⟨hwritten, -⟩)
    · exact h.outdated lease houtdated
    · simp [hwrites] at hwritten

end Sighted

namespace Crew

variable {s : Settings} {c left : Crew}

theorem sighted_step [ScanOrder] (hd : c.Disciplined s) (h : Sighted c.log c.state.store)
    (hticked : Ticked s c left) : Sighted left.log left.state.store := by
  cases hticked with
  | idle => exact h
  | enter operation => exact h
  | @advance call operation action next reply state hcall hfree hdoes =>
    cases action with
    | ask asked => exact h.ask ⟨call, operation, .ask asked, reply⟩ hd.ordered rfl hdoes
    | _ =>
      show Sighted (_ :: c.log) state.store
      rw [show state.store = c.state.store from hdoes]
      exact h.other (by simp)
  | cutOff call => exact ⟨h.held_le, h.seen_le, h.outdated, h.fresh⟩

end Crew
end Coordinator
end CrawlCluster
