import CrawlCluster.Proofs.Coordinator.Sightings

/-!
Where a job is while calls run side by side: in the queue, in the hand of the call that took it
from there, or under a lease. It goes from one to the next and never back; so the row of a lease
that is gone from the table is not put there again.
-/

set_option autoImplicit false

namespace CrawlCluster

namespace Store

def withTaken (taken : Option Job) (s : Store) : Store :=
  { s with queue := (taken.map fun job => { seq := 0, job }).toList ++ s.queue }

def waiting (s : Store) : List String := s.queue.map (·.job.id)

/-- Jobs only come into the queue anew, and only from the queue under a lease. -/
structure Onward (s left : Store) : Prop where
  nextSeq_le : s.nextSeq ≤ left.nextSeq
  waiting : ∀ id ∈ left.waiting, id ∈ s.waiting ∨ ∃ n, s.nextSeq ≤ n ∧ id = jobId n
  leased : ∀ id ∈ left.leasedIds, id ∈ s.waiting ∨ id ∈ s.leasedIds

def Departed (id : String) (s : Store) : Prop :=
  id ∉ s.waiting ∧ ∃ n < s.nextSeq, id = jobId n

variable {s left : Store} {id : String}

theorem Onward.refl (s : Store) : s.Onward s :=
  ⟨Nat.le_refl _, fun _ => .inl, fun _ => .inr⟩

theorem Onward.departed (h : s.Onward left) (hid : Departed id s) : Departed id left := by
  obtain ⟨hwaiting, n, hn, rfl⟩ := hid
  refine ⟨?_, n, Nat.lt_of_lt_of_le hn h.nextSeq_le, rfl⟩
  intro hback
  rcases h.waiting _ hback with hbefore | ⟨m, hm, he⟩
  · exact hwaiting hbefore
  · have hmn := jobId_injective he
    omega

theorem Onward.not_leased (h : s.Onward left) (hid : Departed id s) (hgone : id ∉ s.leasedIds) :
    id ∉ left.leasedIds := by
  intro hback
  rcases h.leased id hback with hbefore | hbefore
  · exact hid.1 hbefore
  · exact hgone hbefore

theorem Distinct.departed (h : s.Distinct) (hid : id ∈ s.leasedIds) : Departed id s := by
  refine ⟨fun hwaiting => ?_, h.issued id (List.mem_append_right _ hid)⟩
  exact (List.nodup_append.1 h.nodup).2.2 id hwaiting id hid rfl

theorem mem_leasedIds_of_leased? (h : s.leased? id ≠ none) : id ∈ s.leasedIds := by
  obtain ⟨row, hrow⟩ := Option.ne_none_iff_exists'.1 h
  refine List.mem_map.2 ⟨row, List.mem_of_find?_eq_some hrow, ?_⟩
  simpa using List.find?_some hrow

theorem mem_leasedIds_grant {now : Int64} {job : Job} (h : Ordered s.current)
    (hid : id ∈ (s.grant now job).leasedIds) : id = job.id ∨ id ∈ s.leasedIds := by
  obtain ⟨row, hrow, rfl⟩ := List.mem_map.1 hid
  rcases (mem_putLease h).1 hrow with rfl | ⟨hrow, -⟩
  · exact .inl rfl
  · exact .inr (List.mem_map_of_mem hrow)

theorem enqueue_withTaken_perm (now : Int64) (entry : Enqueue) (taken : Option Job) (s : Store) :
    ((s.withTaken taken).enqueue now entry).queue.Perm
      ((s.enqueue now entry).withTaken taken).queue :=
  (insertQueued_perm _ _).trans
    (List.perm_middle.symm.trans ((insertQueued_perm _ s.queue).symm.append_left _))

theorem Distinct.enqueue_withTaken {taken : Option Job} (h : (s.withTaken taken).Distinct)
    (now : Int64) (entry : Enqueue) : ((s.enqueue now entry).withTaken taken).Distinct ∧
      (s.withTaken taken).Onward ((s.enqueue now entry).withTaken taken) := by
  have hperm := (enqueue_withTaken_perm now entry taken s).map (·.job.id)
  have hdistinct : ((s.enqueue now entry).withTaken taken).Distinct ∧ _ :=
    (h.enqueue now entry).1.keep [] h.ordered rfl (hperm.append_right _)
  refine ⟨hdistinct.1, Nat.le_succ _, ?_, fun _ => .inr⟩
  intro id hid
  have hentered := ((insertQueued_perm _ _).map (·.job.id)).mem_iff.1 (hperm.mem_iff.2 hid)
  rcases List.mem_cons.1 hentered with rfl | hid
  · exact .inr ⟨s.nextSeq, Nat.le_refl _, rfl⟩
  · exact .inl hid

theorem Distinct.takeTop_withTaken {taken : Option Job} {q : Queued} {queue : List Queued}
    (h : (s.withTaken taken).Distinct) (hqueue : s.queue = q :: queue) :
    (({ s with queue } : Store).withTaken (some q.job)).Distinct ∧
      (s.withTaken taken).Onward (({ s with queue } : Store).withTaken (some q.job)) := by
  have hids : (s.withTaken taken).ids.Perm (taken.toList.map (·.id) ++
      (({ s with queue } : Store).withTaken (some q.job)).ids) := by
    cases taken <;> simp [ids, withTaken, hqueue]
  have hdistinct : (({ s with queue } : Store).withTaken (some q.job)).Distinct ∧ _ :=
    h.keep _ h.ordered rfl hids
  refine ⟨hdistinct.1, Nat.le_refl _, ?_, fun _ => .inr⟩
  intro id hid
  refine .inl ?_
  rw [waiting, withTaken, List.map_append, hqueue]
  exact List.mem_append_right _ hid

/-- The job that was taken is leased. -/
theorem Distinct.grant_withTaken {job : Job} (h : (s.withTaken (some job)).Distinct)
    (now : Int64) : ((s.grant now job).withTaken none).Distinct ∧
      (s.withTaken (some job)).Onward ((s.grant now job).withTaken none) := by
  have hqueue : (s.withTaken (some job)).queue = { seq := 0, job } :: s.queue := rfl
  refine ⟨(h.lease hqueue now).1, Nat.le_refl _, ?_, ?_⟩
  · intro id hid
    exact .inl (List.mem_cons_of_mem _ hid)
  · intro id hid
    rcases mem_leasedIds_grant h.ordered hid with rfl | hid
    · exact .inl (List.mem_cons_self ..)
    · exact .inr hid

end Store

namespace Coordinator

section Grips

variable {store : Store} {taken : Option Job} {grip : Grip} {call : StoreCall}

/-- A store call that the discipline allows moves jobs only onward. -/
theorem Grip.onward [ScanOrder] (now : Int64) (hd : (store.withTaken taken).Distinct)
    (hallows : grip.AllowsCall call)
    (hcarried : ∀ job, grip.crawl = some (some job) → taken = some job)
    (hentitled : ∀ id, grip.Entitled id → store.leased? id ≠ none) :
    ∃ taken', ((store.perform now call).2.withTaken taken').Distinct ∧
      (store.withTaken taken).Onward ((store.perform now call).2.withTaken taken') ∧
      (∀ job, (grip.after (.ask call) (store.perform now call).1).crawl = some (some job) →
        taken' = some job) ∧
      (grip.crawl = none → taken' = taken) := by
  cases call with
  | takeTop =>
    simp only [Store.perform, Store.takeTop]
    cases hqueue : store.queue with
    | nil => exact ⟨taken, hd, .refl _, hcarried, fun _ => rfl⟩
    | cons q queue =>
      obtain ⟨hdistinct, honward⟩ := hd.takeTop_withTaken hqueue
      refine ⟨some q.job, hdistinct, honward, ?_, ?_⟩
      · intro job hjob
        exact Option.some.inj hjob
      · intro hnone
        simp [hallows.1] at hnone
  | grant job =>
    have hdone : ∀ other, (grip.crawl.map fun _ => (none : Option Job)) ≠ some (some other) := by
      cases grip.crawl <;> simp
    rcases hallows with ⟨hcrawl, -⟩ | hentitled'
    · obtain rfl := hcarried job hcrawl
      obtain ⟨hdistinct, honward⟩ := hd.grant_withTaken now
      exact ⟨none, hdistinct, honward, fun other hother => absurd hother (hdone other),
        fun hnone => by simp [hcrawl] at hnone⟩
    · have hmem := Store.mem_leasedIds_of_leased? (hentitled job.id hentitled')
      refine ⟨taken, (hd.grant_of_mem now hmem).1, ⟨Nat.le_refl _, fun _ => .inl, ?_⟩,
        fun other hother => absurd hother (hdone other), fun _ => rfl⟩
      intro id hid
      rcases Store.mem_leasedIds_grant hd.ordered hid with rfl | hid
      · exact .inr hmem
      · exact .inr hid
  | retire id =>
    obtain ⟨row, hrow⟩ := Option.ne_none_iff_exists'.1 (hentitled id hallows)
    have hid : row.id = id := by simpa using List.find?_some hrow
    subst hid
    refine ⟨taken, (hd.retire hrow).1, ⟨Nat.le_refl _, fun _ => .inl, ?_⟩, hcarried, fun _ => rfl⟩
    intro other hother
    exact .inr ((List.filter_sublist.map _).subset hother)
  | enqueue entry =>
    obtain ⟨hdistinct, honward⟩ := hd.enqueue_withTaken now entry
    exact ⟨taken, hdistinct, honward, hcarried, fun _ => rfl⟩
  | leased id =>
    simp only [Store.perform]
    cases hrow : store.leased? id with
    | some row => exact ⟨taken, hd, .refl _, hcarried, fun _ => rfl⟩
    | none => exact absurd hrow (hentitled id hallows)
  | _ =>
    refine ⟨taken, ⟨hd.ordered, hd.nodup, hd.issued⟩, ?_, hcarried, fun _ => rfl⟩
    exact ⟨Nat.le_refl _, fun _ => .inl, fun _ => .inr⟩

/-- Only the lease of the job taken and that of the lease passed with are written. -/
theorem Grip.entitled_of_writes {id : String} (hallows : grip.AllowsCall call)
    (hwrites : call.written? = some id) :
    (∃ job, grip.crawl = some (some job) ∧ job.id = id) ∨ grip.Entitled id := by
  cases call with
  | grant job =>
    obtain rfl := Option.some.inj hwrites
    exact hallows.imp_left fun hcrawl => ⟨job, hcrawl.1, rfl⟩
  | retire retired =>
    obtain rfl := Option.some.inj hwrites
    exact .inr hallows
  | _ => cases hwrites

theorem Grip.crawl_after {action : Action} {reply : action.Reply} {job : Job}
    (haction : ∀ call, action ≠ .ask call)
    (h : (grip.after action reply).crawl = some (some job)) : grip.crawl = some (some job) := by
  cases action with
  | ask call => exact absurd rfl (haction call)
  | acquire lock => cases lock <;> simp_all [Grip.after]
  | release lock => cases lock <;> simp_all [Grip.after]
  | _ => exact h

end Grips

theorem Deed.not_writes_of_checked {deed : Deed} {lease : Lease} {id : String}
    (h : deed.checked? = some lease) : deed.written? ≠ some id := by
  rw [eq_of_checked h]
  exact nofun

namespace Crew

/-- The job taken from the queue and not yet leased is in the hand of its call only, and a call
that passed the check with a lease has its row in the table. -/
structure Kept (s : Settings) (taken : Option Job) (c : Crew) : Prop where
  distinct : (c.state.store.withTaken taken).Distinct
  carried : ∀ call operation job, c.Has call operation →
    (grip s call operation c.log).crawl = some (some job) → taken = some job
  entitled : ∀ call operation id, c.Has call operation →
    (grip s call operation c.log).Entitled id → c.state.store.leased? id ≠ none

variable {s : Settings} {taken : Option Job} {call : StoreCall} {c left : Crew}

theorem kept_empty (s : Settings) : Kept s none {} :=
  ⟨Store.distinct_empty, by simp [Has], by simp [Has]⟩

namespace Kept

variable [ScanOrder]

theorem enter (h : Kept s taken c) (hd : c.Disciplined s) (operation : Operation) :
    Kept s taken (c.enter s operation) where
  distinct := h.distinct
  carried := by
    intro call other job hhas hcrawl
    rcases (has_enter operation other call).1 hhas with hhas | ⟨rfl, rfl⟩
    · exact h.carried call other job hhas hcrawl
    · have hstart : (grip s c.calls.length other c.log).crawl = some (some job) := hcrawl
      simp [hd.grip_enter, Grip.start] at hstart
  entitled := by
    intro call other id hhas hentitled
    rcases (has_enter operation other call).1 hhas with hhas | ⟨rfl, rfl⟩
    · exact h.entitled call other id hhas hentitled
    · have hstart : (grip s c.calls.length other c.log).Entitled id := hentitled
      simp [hd.grip_enter, Grip.start, Grip.Entitled] at hstart

/-- What others do leaves the row of a lease alone that a call passed the check with. -/
theorem not_writes (h : Kept s taken c) (hd : c.Disciplined s) {number other : Nat}
    {operation operation' : Operation} {id : String} (hhas : c.Has number operation)
    (hother : c.Has other operation') (hne : other ≠ number)
    (hentitled : (grip s other operation' c.log).Entitled id)
    (hallows : (grip s number operation c.log).AllowsCall call)
    (hlive : c.state.store.exhausted = false) : call.written? ≠ some id := by
  intro hwrites
  rcases Grip.entitled_of_writes hallows hwrites with ⟨job, hcrawl, rfl⟩ | hboth
  · have hrow := Store.mem_leasedIds_of_leased? (h.entitled other operation' _ hother hentitled)
    refine (h.distinct.departed hrow).1 ?_
    rw [h.carried number operation job hhas hcrawl]
    exact List.mem_cons_self ..
  · exact hne (hd.sole hlive .leases hother hhas (Grip.holds_of_entitled hentitled)
      (Grip.holds_of_entitled hboth))

theorem ask (h : Kept s taken c) (hd : c.Disciplined s) {number : Nat} {operation : Operation}
    {next : (Action.ask call).Reply → Program Answer} {reply : (Action.ask call).Reply}
    {state : State Store} (hhas : c.Has number operation)
    (hallows : (grip s number operation c.log).AllowsCall call)
    (hdoes : (Action.ask call).Does reply c.state.store state.store) :
    ∃ taken', Kept s taken' (c.advance number operation next reply state) ∧
      (c.state.store.withTaken taken).Onward (state.store.withTaken taken') := by
  have hshown : ∀ lease ∈ Deed.shown ⟨number, operation, .ask call, reply⟩,
      c.state.store.held? lease ≠ none := fun lease => Deed.held_of_shown hd.ordered hdoes
  have hlive := hdoes.live hdoes.2
  obtain ⟨⟨now, hperform⟩, -⟩ := hdoes
  obtain ⟨taken', hdistinct, honward, hcarried, hsame⟩ := Grip.onward now h.distinct hallows
    (fun job => h.carried number operation job hhas)
    (fun id => h.entitled number operation id hhas)
  have hrow : ∀ id, call.written? ≠ some id →
      state.store.leased? id = c.state.store.leased? id := by
    intro id hwrites
    have hrow : (c.state.store.perform now call).2.leased? id = c.state.store.leased? id :=
      Store.leased?_perform now hwrites
    rwa [hperform] at hrow
  rw [hperform] at hdistinct honward hcarried
  refine ⟨taken', ⟨hdistinct, ?_, ?_⟩, honward⟩
  · intro other operation' job hother hcrawl
    rcases advance_cases s hhas hother with ⟨rfl, rfl, hgrip⟩ | ⟨hne, hother, hgrip⟩
    · rw [hgrip] at hcrawl
      exact hcarried job hcrawl
    · rw [hgrip] at hcrawl
      have hfree : (grip s number operation c.log).crawl = none := by
        by_contra hholds
        exact hne (hd.sole hlive .crawl hother hhas (by simp [Grip.Holds, hcrawl]) hholds)
      rw [hsame hfree]
      exact h.carried other operation' job hother hcrawl
  · intro other operation' id hother hentitled
    show state.store.leased? id ≠ none
    rcases advance_cases s hhas hother with ⟨rfl, rfl, hgrip⟩ | ⟨hne, hother, hgrip⟩
    · rw [hgrip] at hentitled
      obtain ⟨lease, hpassed, rfl⟩ := hentitled
      have hcases := Grip.passed_of_next ⟨other, operation, .ask call, reply⟩ hallows
        hpassed
      rcases hcases with ⟨hbefore, hwrites⟩ | ⟨hchecked, -⟩
      · rw [hrow _ hwrites]
        exact h.entitled other operation _ hhas ⟨lease, hbefore, rfl⟩
      · have hheld := hshown lease (List.mem_append_left _ (Option.mem_toList.2 hchecked))
        rw [hrow _ (Deed.not_writes_of_checked hchecked)]
        intro hnone
        simp [Store.held?, hnone] at hheld
    · rw [hgrip] at hentitled
      rw [hrow id (h.not_writes hd hhas hother hne hentitled hallows hlive)]
      exact h.entitled other operation' id hother hentitled

omit [ScanOrder] in
theorem other (h : Kept s taken c) {number : Nat} {operation : Operation} {action : Action}
    {next : action.Reply → Program Answer} {reply : action.Reply} {state : State Store}
    (hhas : c.Has number operation) (haction : ∀ call, action ≠ .ask call)
    (hallows : (grip s number operation c.log).Allows action)
    (hstore : state.store = c.state.store) :
    Kept s taken (c.advance number operation next reply state) := by
  refine ⟨?_, ?_, ?_⟩
  · show (state.store.withTaken taken).Distinct
    rw [hstore]
    exact h.distinct
  · intro other operation' job hother hcrawl
    rcases advance_cases s hhas hother with ⟨rfl, rfl, hgrip⟩ | ⟨hne, hother, hgrip⟩
    · rw [hgrip] at hcrawl
      exact h.carried other operation job hhas (Grip.crawl_after haction hcrawl)
    · rw [hgrip] at hcrawl
      exact h.carried other operation' job hother hcrawl
  · intro other operation' id hother hentitled
    show state.store.leased? id ≠ none
    rw [hstore]
    rcases advance_cases s hhas hother with ⟨rfl, rfl, hgrip⟩ | ⟨hne, hother, hgrip⟩
    · rw [hgrip] at hentitled
      obtain ⟨lease, hpassed, rfl⟩ := hentitled
      rcases Grip.passed_of_next ⟨other, operation, action, reply⟩ hallows hpassed with
        ⟨hbefore, -⟩ | ⟨hchecked, -⟩
      · exact h.entitled other operation _ hhas ⟨lease, hbefore, rfl⟩
      · have haction' := congrArg Deed.action (Deed.eq_of_checked hchecked)
        exact absurd haction' (haction _)
    · rw [hgrip] at hentitled
      exact h.entitled other operation' id hother hentitled

theorem step (h : Kept s taken c) (hd : c.Disciplined s) (hticked : Ticked s c left) :
    ∃ taken', Kept s taken' left ∧
      (c.state.store.withTaken taken).Onward (left.state.store.withTaken taken') := by
  cases hticked with
  | idle => exact ⟨taken, h, .refl _⟩
  | enter operation => exact ⟨taken, h.enter hd operation, .refl _⟩
  | @advance number operation action next reply state hcall hfree hdoes =>
    have hhas := has_of_getElem? hcall
    have hallows := (hd.obeys number operation _ hcall).1
    cases action with
    | ask call => exact h.ask hd hhas hallows hdoes
    | _ =>
      have hstore : state.store = c.state.store := hdoes
      refine ⟨taken, h.other hhas (by simp) hallows hstore, ?_⟩
      show (c.state.store.withTaken taken).Onward (state.store.withTaken taken)
      rw [hstore]
      exact .refl _
  | cutOff call =>
    have hdistinct := h.distinct
    exact ⟨taken, ⟨⟨hdistinct.ordered, hdistinct.nodup, hdistinct.issued⟩, h.carried, h.entitled⟩,
      ⟨Nat.le_refl _, fun _ => .inl, fun _ => .inr⟩⟩

end Kept

variable [ScanOrder]

/-- In every crew that came to be: the calls keep to the discipline, and the jobs are where it has
them. -/
theorem run_kept (s : Settings) (ticks : List Tick) :
    (run s ticks).Disciplined s ∧ ∃ taken, Kept s taken (run s ticks) := by
  refine run_keeps s (fun c => c.Disciplined s ∧ ∃ taken, Kept s taken c)
    ⟨disciplined_empty s, none, kept_empty s⟩ ?_ ticks
  rintro c left ⟨hd, taken, hkept⟩ hticked
  obtain ⟨taken', hkept', -⟩ := hkept.step hd hticked
  exact ⟨hd.step hticked, taken', hkept'⟩

/-- The job of this id was taken from the queue and leased at some time. -/
def Served (s : Settings) (id : String) (c : Crew) : Prop :=
  c.Disciplined s ∧
    ∃ taken, Kept s taken c ∧ Store.Departed id (c.state.store.withTaken taken)

theorem served_of_leased {id : String} (ticks : List Tick) (h : id ∈ (run s ticks).leased) :
    Served s id (run s ticks) := by
  obtain ⟨hd, taken, hkept⟩ := run_kept s ticks
  exact ⟨hd, taken, hkept, hkept.distinct.departed h⟩

/-- A job that was served is not in the queue, so that no row can come from there. -/
theorem Served.step {id : String} (h : Served s id c) (hticked : Ticked s c left) :
    Served s id left ∧ (id ∉ c.leased → id ∉ left.leased) := by
  obtain ⟨hd, taken, hkept, hid⟩ := h
  obtain ⟨taken', hkept', honward⟩ := hkept.step hd hticked
  exact ⟨⟨hd.step hticked, taken', hkept', honward.departed hid⟩, honward.not_leased hid⟩

/-- A row that is gone from the table of leases is not put there again. -/
theorem run_not_leased (s : Settings) (ticks more later : List Tick) {id : String}
    (hleased : id ∈ (run s ticks).leased) (hgone : id ∉ (run s (ticks ++ more)).leased) :
    id ∉ (run s (ticks ++ more ++ later)).leased := by
  have hserved : Served s id (run s (ticks ++ more)) := by
    rw [run_append]
    exact run_keeps s (Served s id) (served_of_leased ticks hleased)
      (fun _ _ h hticked => (h.step hticked).1) more
  have hboth : Served s id (run s (ticks ++ more ++ later)) ∧
      id ∉ (run s (ticks ++ more ++ later)).leased := by
    rw [run_append]
    refine run_keeps s (fun c => Served s id c ∧ id ∉ c.leased) ⟨hserved, hgone⟩ ?_ later
    intro c left h hticked
    exact ⟨(h.1.step hticked).1, (h.1.step hticked).2 h.2⟩
  exact hboth.2

end Crew
end Coordinator
end CrawlCluster
