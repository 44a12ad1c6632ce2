import CrawlCluster.Proofs.Coordinator.Manners
import CrawlCluster.Proofs.Coordinator.PuttingBack

/-!
The ids a coordinator gives to jobs while its store fails now and then. Whatever calls fail, no two
jobs in the store share an id, and an id given anew was never given before. Main statement:
`attend_distinct`.
-/

set_option autoImplicit false

namespace CrawlCluster

theorem Store.Distinct.shrink {s left : Store} (h : s.Distinct) (hordered : Ordered left.current)
    (hnext : left.nextSeq = s.nextSeq) (hids : left.ids.Sublist s.ids) :
    left.Distinct ∧ s.Precedes left :=
  ⟨⟨hordered, h.nodup.sublist hids, fun id hid => hnext ▸ h.issued id (hids.subset hid)⟩,
    by omega, fun id hid => .inl (hids.subset hid)⟩

theorem Store.Distinct.takeTop {s : Store} {q : Queued} {queue : List Queued} (h : s.Distinct)
    (hqueue : s.queue = q :: queue) :
    ({ s with queue } : Store).Distinct ∧ s.Precedes { s with queue } := by
  refine h.shrink h.ordered rfl ?_
  simp only [ids, hqueue, List.map_cons, List.cons_append]
  exact List.sublist_cons_self ..

namespace Coordinator

open Program (Heeds heeds_ask heeds_query run_map ensures_holding ensures_bind then_ok settle query)

section Unleasing

def Action.leases : Action → Bool
  | .ask call => call.kind == .grant
  | _ => false

def Manner.unleasing : Manner := ⟨fun call => (Action.ask call).leases = false, fun _ _ => True⟩

theorem Manner.keeps_unleasing [ScanOrder] (base : Store) :
    Manner.unleasing.Keeps fun store => store.Distinct ∧ base.Precedes store where
  failed _ _ := trivial
  carried := by
    rintro call store hcall ⟨h, hbase⟩ now
    refine ⟨trivial, ?_⟩
    suffices hcall : (store.perform now call).2.Distinct ∧
        store.Precedes (store.perform now call).2 from ⟨hcall.1, hbase.trans hcall.2⟩
    cases call with
    | enqueue entry => exact h.enqueue now entry
    | takeTop =>
      cases hqueue : store.queue with
      | nil =>
        simp only [Store.perform, Store.takeTop, hqueue]
        exact ⟨h, .refl _⟩
      | cons q queue =>
        simp only [Store.perform, Store.takeTop, hqueue]
        exact h.takeTop hqueue
    | leased id =>
      simp only [Store.perform]
      cases store.leased? id <;> exact ⟨h, .refl _⟩
    | retire id =>
      exact h.shrink (h.ordered.filter _) rfl ((List.filter_sublist.map _).append_left _)
    | grant job => contradiction
    | connect db => exact ⟨h, .refl _⟩
    | leaseTime id => exact ⟨h, .refl _⟩
    | recordFailure failed => exact h.recordFailure failed
    | depth => exact ⟨h, .refl _⟩
    | crawlId => exact ⟨h, .refl _⟩
    | setCrawlId crawlId => exact h.shrink h.ordered rfl (.refl _)
    | leases => exact ⟨h, .refl _⟩

variable {α β : Type} {s : Settings}

abbrev Program.Unleasing (p : Program α) : Prop := p.Heeds .unleasing fun _ => True

theorem Program.Unleasing.bind {p : Program α} {f : α → Program β} (hp : p.Unleasing)
    (hf : ∀ value, (f value).Unleasing) : (p >>= f).Unleasing :=
  Heeds.bind hp (fun value _ => hf value) fun _ _ => trivial

theorem Program.Unleasing.holding {p : Program α} (lock : Lock) (hp : p.Unleasing) :
    (Program.holding lock p).Unleasing := Heeds.holding lock hp

theorem unleasing_orFail (error : StoreError → JobError) (reply : Except StoreError α) :
    (Program.orFail error reply).Unleasing := by
  cases reply <;> trivial

theorem unleasing_perform {action : Action} (h : action.leases = false) :
    (Program.perform action).Unleasing := by
  cases action with
  | ask call => exact ⟨h, fun _ _ => trivial⟩
  | _ => exact fun _ => trivial

theorem unleasing_query {call : StoreCall} (h : (Action.ask call).leases = false) :
    (query call).Unleasing :=
  heeds_query h fun _ _ => trivial

theorem unleasing_pure (value : α) : (pure value : Program α).Unleasing := trivial

theorem unleasing_fail (error : JobError) : (Program.fail error : Program α).Unleasing := trivial

theorem unleasing_enqueueNew (index : Nat) (jobs : List NewJob) :
    (enqueueNew s index jobs).Unleasing := by
  induction jobs generalizing index with
  | nil => exact unleasing_pure ()
  | cons job jobs ih =>
    exact .bind (unleasing_perform rfl) fun reply =>
      .bind (unleasing_orFail _ reply) fun _ => ih (index + 1)

theorem unleasing_acceptJobs (jobs : List NewJob) : (acceptJobs s jobs).Unleasing := by
  unfold acceptJobs
  split
  · exact unleasing_fail _
  · exact .bind (unleasing_enqueueNew 0 jobs) fun _ => unleasing_pure _

theorem unleasing_consume (directive : Directive) : (consume directive).Unleasing := by
  refine .holding .crawl (.bind (unleasing_perform rfl) fun outstanding => ?_)
  split
  · exact unleasing_perform rfl
  · exact unleasing_fail _

theorem unleasing_adoptCrawlId (crawlId : Int32) : (adoptCrawlId crawlId).Unleasing := by
  refine .bind (unleasing_perform rfl) fun known => ?_
  split
  · exact .bind (unleasing_query rfl) fun _ => unleasing_perform rfl
  · exact unleasing_pure ()

theorem unleasing_acceptHarvest (harvest : Harvest) : (acceptHarvest s harvest).Unleasing := by
  refine .bind (unleasing_consume _) fun _ =>
    .bind (unleasing_adoptCrawlId _) fun _ => ?_
  have hrest : (do enqueueNew s 0 harvest.jobs; return uploaded : Program String).Unleasing :=
    .bind (unleasing_enqueueNew 0 harvest.jobs) fun _ => unleasing_pure _
  split
  · exact .bind (unleasing_perform rfl) fun _ => hrest
  · exact hrest

theorem unleasing_fenced (lease : Lease) : (fenced lease).Unleasing := by
  refine .bind (unleasing_query rfl) fun current => ?_
  split
  · refine .bind (unleasing_perform rfl) fun reply => ?_
    split <;> trivial
  · exact unleasing_fail _

theorem unleasing_acceptReport (node : Peer) (client : String) (report : Report) :
    (acceptReport s node client report).Unleasing := by
  have hretire (id text : String) :
      (do query (.retire id); return text : Program String).Unleasing :=
    .bind (unleasing_query rfl) fun _ => unleasing_pure _
  refine .holding .leases (.bind (unleasing_fenced report.lease) fun job =>
    .bind (unleasing_perform rfl) fun _ => ?_)
  split
  · exact .bind (unleasing_query rfl) fun _ =>
      .bind (unleasing_perform rfl) fun _ => unleasing_pure _
  · refine .bind (unleasing_query rfl) fun _ => ?_
    split
    · exact .bind (unleasing_query rfl) fun _ => hretire ..
    · exact hretire ..

theorem unleasing_reclaim (job : Job) : (reclaim s job).Unleasing := by
  refine .holding .leases (.bind (unleasing_query rfl) fun current => ?_)
  split
  · refine .bind (unleasing_query rfl) fun _ =>
      .bind (unleasing_query rfl) fun _ => ?_
    split
    · exact .bind (unleasing_query rfl) fun _ => unleasing_pure _
    · exact unleasing_pure _
  · exact unleasing_pure _

theorem unleasing_reclaimEach (jobs : List Job) (count : Nat) :
    (reclaimEach s jobs count).Unleasing := by
  induction jobs generalizing count with
  | nil => exact unleasing_pure _
  | cons job jobs ih => exact .bind (unleasing_reclaim job) fun _ => ih _

theorem unleasing_sweep (before : Int64) : (sweep s before).Unleasing :=
  .bind (unleasing_query rfl) fun _ => unleasing_reclaimEach _ 0

end Unleasing

section Duties

variable {α β : Type} {s : Settings} {now : Int64} {st : State ScriptedStore}

/-- The ids in the store stay distinct, and those that are new were never given before. -/
def Issues (st : State ScriptedStore) (run : Except JobError α × State ScriptedStore) : Prop :=
  run.2.store.store.Distinct ∧ st.store.store.Precedes run.2.store.store

variable [ScanOrder]

theorem Program.Unleasing.issues {p : Program α} (hp : p.Unleasing) (now : Int64)
    (h : st.store.store.Distinct) : Issues st (p.run (s.scriptedSite now) st) := by
  have hstart : st.plain.store.Distinct ∧ st.store.store.Precedes st.plain.store := ⟨h, .refl _⟩
  exact (hp.ensures (Manner.keeps_unleasing _) hstart now).run_failing.1

theorem Issues.map {p : Program α} {f : α → β} (h : Issues st (p.run (s.scriptedSite now) st)) :
    Issues st ((p >>= fun value => pure (f value)).run (s.scriptedSite now) st) := by
  rw [Issues, run_map]
  exact h

theorem issues_takeJob (now : Int64) (h : st.store.store.Distinct) :
    Issues st ((takeJob s).run (s.scriptedSite now) st) := by
  have htaking := taking_takeJob s now st
  unfold Takes at htaking
  unfold Issues
  generalize ((takeJob s).run (s.scriptedSite now) st).1 = result at htaking
  generalize ((takeJob s).run (s.scriptedSite now) st).2 = left at htaking ⊢
  have hstore {store : Store} (hbooks : left.plain.books = { st.plain.books with store }) :
      left.store.store = store := congrArg Books.store hbooks
  cases htaking with
  | spider t hqueue hbooks =>
    rw [hstore hbooks]
    exact h.lease hqueue t
  | directed _ hsame =>
    rw [hsame]
    exact ⟨h, .refl _⟩
  | failed _ hbooks =>
    rw [hstore hbooks]
    exact ⟨h, .refl _⟩
  | putBack _ t hqueue hbooks =>
    rw [hstore hbooks]
    obtain ⟨htaken, hprecedes⟩ := h.takeTop hqueue
    obtain ⟨hback, hprecedes'⟩ := htaken.enqueue t _
    exact ⟨hback, hprecedes.trans hprecedes'⟩
  | lost _ hqueue hbooks =>
    rw [hstore hbooks]
    exact h.takeTop hqueue

theorem issues_renew (now : Int64) (lease : Lease) (h : st.store.store.Distinct) :
    Issues st ((renew lease).run (s.scriptedSite now) st) := by
  have hensures : (renew lease).Ensures .failing now (fun _ left =>
      left.store.Distinct ∧ st.store.store.Precedes left.store) st.plain := by
    have hsame {left : State Store} (hleft : left.store = st.store.store) :
        left.store.Distinct ∧ st.store.store.Precedes left.store := by
      rw [hleft]
      exact ⟨h, .refl _⟩
    unfold renew
    rw [ensures_holding, ensures_bind]
    apply failing_fenced
    · intro job left hheld hleft
      rw [then_ok]
      apply failing_query
      · intro t left' hleft'
        rw [hleft', hleft]
        exact h.regrant t (Store.leased?_of_held? hheld)
      · intro error left' hleft' _
        exact hsame (hleft'.trans hleft)
    · intro error left hleft
      exact hsame hleft
  exact hensures.run_failing

theorem issues_request (now : Int64) (request : Request) (h : st.store.store.Distinct) :
    Issues st ((request.program s).run (s.scriptedSite now) st) := by
  cases request with
  | upload jobs => exact ((unleasing_acceptJobs jobs).issues now h).map
  | harvest brought => exact ((unleasing_acceptHarvest brought).issues now h).map
  | takeJob => exact (issues_takeJob now h).map
  | renew lease => exact (issues_renew now lease h).map
  | report node client said => exact ((unleasing_acceptReport node client said).issues now h).map
  | sweep before => exact ((unleasing_sweep before).issues now h).map

theorem issues_duty (duty : Duty) (now : Int64) (h : st.store.store.Distinct) :
    Issues st ((duty.program s).run (s.scriptedSite now) st) := by
  cases duty with
  | connect db => exact Program.Unleasing.issues (unleasing_query rfl) now h
  | loadCrawlId =>
    exact Program.Unleasing.issues (.bind (unleasing_query rfl) fun _ =>
      .bind (unleasing_perform rfl) fun _ => unleasing_pure _) now h
  | serve operation =>
    cases hread : operation.read s with
    | error error =>
      rw [Duty.program, Operation.run_of_unread hread]
      exact ⟨h, .refl _⟩
    | ok request =>
      rw [Duty.program, Operation.run_of_read hread]
      exact issues_request now request h

end Duties

theorem attend_distinct [ScanOrder] (s : Settings) (duties : List (Duty × Int64))
    {st : State ScriptedStore} (h : st.store.store.Distinct) :
    (attend s duties st).2.store.store.Distinct ∧
      st.store.store.Precedes (attend s duties st).2.store.store := by
  induction duties generalizing st with
  | nil => exact ⟨h, .refl _⟩
  | cons first duties ih =>
    obtain ⟨hfirst, hprecedes⟩ := issues_duty first.1 first.2 h
    obtain ⟨hrest, hprecedes'⟩ := ih hfirst
    exact ⟨hrest, hprecedes.trans hprecedes'⟩

end Coordinator
end CrawlCluster
