import CrawlCluster.Proofs.Coordinator.Manners
import CrawlCluster.Proofs.Job.RoundTrip
import CrawlCluster.Store.Lemmas

/-!
Jobs whose id and url hold no separator. Main statement: an operation whose new jobs were read off
the wire leaves none but such jobs in the store, if it found none but such there; and then the
assignment it makes out of one can be read.
-/

set_option autoImplicit false

namespace CrawlCluster

variable {sep : Char}

def Job.Legible (sep : Char) (job : Job) : Prop := sep ∉ job.id.toList ∧ sep ∉ job.url.toList

structure Store.Legible (sep : Char) (s : Store) : Prop where
  queue : ∀ q ∈ s.queue, q.job.Legible sep
  current : ∀ job ∈ s.current, job.Legible sep

def StoreCall.Legible (sep : Char) : StoreCall → Prop
  | .enqueue entry => sep ∉ entry.url.toList
  | .grant job => job.Legible sep
  | _ => True

def Assignment.Legible (sep : Char) : Assignment → Prop
  | .spider jobId url _ _ => sep ∉ jobId.toList ∧ sep ∉ url.toList
  | .crawl _ | .idle _ => True

theorem Assignment.Legible.plain {d : Delimiters} {assignment : Assignment}
    (h : assignment.Legible d.fieldChar) : assignment.Plain d := by
  cases assignment <;> exact h

def StoreCall.Shows (sep : Char) : (call : StoreCall) → Except StoreError call.Reply → Prop
  | .takeTop, .ok job => job.Legible sep
  | .leased _, .ok job => job.Legible sep
  | .leases, .ok jobs => ∀ job ∈ jobs, job.Legible sep
  | _, _ => True

namespace Store

theorem legible_empty (sep : Char) : ({} : Store).Legible sep := ⟨nofun, nofun⟩

theorem eq_or_mem_of_mem_putLease {job j : Job} {table : List Job} (h : j ∈ putLease job table) :
    j = job ∨ j ∈ table := by
  induction table with
  | nil => simpa [putLease] using h
  | cons first table ih =>
    rw [putLease] at h
    split at h
    · exact (List.mem_cons.1 h).imp_right (List.mem_cons_of_mem _)
    · split at h
      · exact List.mem_cons.1 h
      · rcases List.mem_cons.1 h with rfl | h
        · exact .inr List.mem_cons_self
        · exact (ih h).imp_right (List.mem_cons_of_mem _)

theorem Legible.enqueue {s : Store} (hs : s.Legible sep) (hsep : ∀ seq, sep ∉ (jobId seq).toList)
    {entry : Enqueue} (hentry : sep ∉ entry.url.toList) (now : Int64) :
    (s.enqueue now entry).Legible sep where
  queue q hq := by
    rcases List.mem_cons.1 ((insertQueued_perm _ s.queue).mem_iff.1 hq) with rfl | hq
    · exact ⟨hsep _, hentry⟩
    · exact hs.queue q hq
  current := hs.current

theorem Legible.perform [ScanOrder] {s : Store} (hs : s.Legible sep)
    (hsep : ∀ seq, sep ∉ (jobId seq).toList) {call : StoreCall} (hcall : call.Legible sep)
    (now : Int64) :
    call.Shows sep (s.perform now call).1 ∧ (s.perform now call).2.Legible sep := by
  cases call with
  | enqueue entry => exact ⟨trivial, hs.enqueue hsep hcall now⟩
  | takeTop =>
    simp only [Store.perform, takeTop]
    cases hqueue : s.queue with
    | nil => exact ⟨trivial, hs⟩
    | cons q queue =>
      exact ⟨hs.queue q (by simp [hqueue]), fun q' hq' => hs.queue q' (by simp [hqueue, hq']),
        hs.current⟩
  | leased id =>
    simp only [Store.perform]
    cases hjob : s.leased? id with
    | none => exact ⟨trivial, hs⟩
    | some job => exact ⟨hs.current job (List.mem_of_find?_eq_some hjob), hs⟩
  | grant job =>
    refine ⟨trivial, hs.queue, fun j hj => ?_⟩
    rcases eq_or_mem_of_mem_putLease hj with rfl | hj
    · exact hcall
    · exact hs.current j hj
  | retire id => exact ⟨trivial, hs.queue, fun j hj => hs.current j (List.mem_filter.1 hj).1⟩
  | leases => exact ⟨fun job hjob => hs.current job (mem_scan.1 hjob), hs⟩
  | recordFailure failed => exact ⟨trivial, hs.queue, hs.current⟩
  | setCrawlId crawlId => exact ⟨trivial, hs.queue, hs.current⟩
  | connect db => exact ⟨trivial, hs⟩
  | leaseTime id => exact ⟨trivial, hs⟩
  | depth => exact ⟨trivial, hs⟩
  | crawlId => exact ⟨trivial, hs⟩

end Store

namespace Coordinator

open Program

variable {α β : Type}

def Manner.legible (sep : Char) : Manner := ⟨StoreCall.Legible sep, StoreCall.Shows sep⟩

theorem Manner.keeps_legible [ScanOrder] (hsep : ∀ seq, sep ∉ (Store.jobId seq).toList) :
    (Manner.legible sep).Keeps (Store.Legible sep) where
  carried hcall hstore now := hstore.perform hsep hcall now
  failed call _ := by cases call <;> trivial

def Yields (good : α → Prop) (result : Except JobError α) : Prop :=
  ∀ value, result = .ok value → good value

/-- Only legible jobs are put into the store, and what is returned is `good`, as long as only
legible jobs are found there. -/
abbrev Program.Neat (sep : Char) (good : α → Prop) (p : Program α) : Prop :=
  p.Heeds (.legible sep) (Yields good)

section Neat

variable {good : α → Prop} {goal : β → Prop}

theorem yields_ok {value : α} (h : good value) : Yields good (.ok value) := by
  rintro _ ⟨⟩
  exact h

theorem neat_pure {value : α} (h : good value) : (pure value : Program α).Neat sep good :=
  yields_ok h

theorem neat_fail (error : JobError) : (fail error : Program α).Neat sep good := nofun

theorem Program.Heeds.next {p : Program α} {f : α → Program β} (hp : p.Neat sep good)
    (hf : ∀ value, good value → (f value).Neat sep goal) : (p >>= f).Neat sep goal :=
  hp.bind (fun value hgood => hf value (hgood value rfl)) fun _ _ => nofun

theorem neat_ask (call : StoreCall) (h : call.Legible sep) :
    (ask call).Neat sep fun reply => call.Shows sep reply :=
  heeds_ask h fun _ hreply => yields_ok hreply

theorem neat_query (call : StoreCall) (h : call.Legible sep) :
    (query call).Neat sep fun reply => call.Shows sep (.ok reply) := by
  refine heeds_query h fun reply hreply => ?_
  cases reply with
  | ok value => exact yields_ok hreply
  | error error => exact nofun

theorem neat_outstanding : (perform .outstanding).Neat sep fun _ => True := fun _ _ _ => trivial

theorem neat_crawlId : (perform .crawlId).Neat sep fun _ => True := fun _ _ _ => trivial

theorem neat_orFail {error : StoreError → JobError} {reply : Except StoreError α}
    (h : ∀ value, reply = .ok value → good value) : (orFail error reply).Neat sep good := by
  cases reply with
  | ok value => exact neat_pure (h value rfl)
  | error e => exact neat_fail (error e)

end Neat

section Parts

variable {s : Settings}

theorem neat_enqueueNew (index : Nat) {jobs : List NewJob}
    (h : ∀ job ∈ jobs, sep ∉ job.url.toList) :
    (enqueueNew s index jobs).Neat sep fun _ => True := by
  induction jobs generalizing index with
  | nil => exact neat_pure trivial
  | cons job jobs ih =>
    simp only [List.mem_cons, forall_eq_or_imp] at h
    refine (neat_ask (.enqueue (newEntry s job)) h.1).next fun reply _ => ?_
    have hreply : (orFail (fun _ => .upload index) reply).Neat sep fun _ => True :=
      neat_orFail fun _ _ => trivial
    exact hreply.next fun _ _ => ih (index + 1) h.2

theorem neat_acceptJobs {jobs : List NewJob} (h : ∀ job ∈ jobs, sep ∉ job.url.toList) :
    (acceptJobs s jobs).Neat sep fun _ => True := by
  unfold acceptJobs
  split
  · exact neat_fail _
  · exact (neat_enqueueNew 0 h).next fun _ _ => neat_pure trivial

theorem neat_returnEntry {job : Job} (h : job.Legible sep) (retries : UInt32) :
    (StoreCall.enqueue (returnEntry job retries)).Legible sep := h.2

theorem neat_grant {job : Job} (h : job.Legible sep) :
    (grant job).Neat sep (Assignment.Legible sep) := by
  refine (neat_ask (.grant job) h).next fun reply _ => ?_
  cases reply with
  | ok leaseTime => exact neat_pure h
  | error error => exact (neat_ask (.enqueue _) (neat_returnEntry h _)).next fun _ _ => neat_fail _

theorem neat_direct (now : Int64) (outstanding fresh : Option Directive) :
    (direct now outstanding fresh).Neat sep (Assignment.Legible sep) := by
  cases fresh with
  | some directive => exact neat_pure trivial
  | none => exact fun _ _ => neat_pure trivial

theorem neat_takeJob : (takeJob s).Neat sep (Assignment.Legible sep) := by
  refine Heeds.holding .crawl fun now outstanding => ?_
  refine (neat_query .depth trivial).next fun depth _ => ?_
  split
  · refine (neat_ask .takeTop trivial).next fun reply hreply => ?_
    split
    · exact neat_grant hreply
    · exact neat_direct ..
    · exact neat_fail _
  · exact neat_direct ..

theorem neat_fenced (lease : Lease) : (fenced lease).Neat sep (Job.Legible sep) := by
  refine (neat_query (.leaseTime _) trivial).next fun current _ => ?_
  split
  · refine (neat_ask (.leased _) trivial).next fun reply hreply => ?_
    split
    · exact neat_pure hreply
    · exact neat_fail _
    · exact neat_fail _
  · exact neat_fail _

theorem neat_renew (lease : Lease) : (renew lease).Neat sep fun _ => True := by
  refine Heeds.holding .leases ((neat_fenced lease).next fun job hjob => ?_)
  exact heeds_query hjob fun _ _ _ _ => trivial

theorem neat_acceptReport (node : Peer) (client : String) (report : Report) :
    (acceptReport s node client report).Neat sep fun _ => True := by
  refine Heeds.holding .leases ((neat_fenced report.lease).next fun job hjob => fun _ => ?_)
  have hretire (text : String) :
      (do query (.retire job.id); return text : Program String).Neat sep fun _ => True :=
    (neat_query (.retire job.id) trivial).next fun _ _ => neat_pure trivial
  split
  · exact (neat_query (.retire job.id) trivial).next fun _ _ => fun _ => neat_pure trivial
  · refine (neat_query (.recordFailure _) trivial).next fun _ _ => ?_
    split
    · exact (neat_query (.enqueue _) (neat_returnEntry hjob _)).next fun _ _ => hretire _
    · exact hretire _

theorem neat_consume (directive : Directive) : (consume directive).Neat sep fun _ => True := by
  refine Heeds.holding .crawl (neat_outstanding.next fun outstanding _ => ?_)
  split
  · exact fun _ => neat_pure trivial
  · exact neat_fail _

theorem neat_adoptCrawlId (crawlId : Int32) :
    (adoptCrawlId crawlId).Neat sep fun _ => True := by
  refine neat_crawlId.next fun known _ => ?_
  split
  · exact (neat_query (.setCrawlId crawlId) trivial).next fun _ _ => fun _ => neat_pure trivial
  · exact neat_pure trivial

theorem neat_acceptHarvest {harvest : Harvest} (h : ∀ job ∈ harvest.jobs, sep ∉ job.url.toList) :
    (acceptHarvest s harvest).Neat sep fun _ => True := by
  refine (neat_consume harvest.directive).next fun _ _ => (neat_adoptCrawlId _).next fun _ _ => ?_
  have hrest : (do enqueueNew s 0 harvest.jobs; return uploaded : Program String).Neat sep
      fun _ => True := (neat_enqueueNew 0 h).next fun _ _ => neat_pure trivial
  split
  · exact fun _ => hrest
  · exact hrest

theorem neat_reclaim {job : Job} (h : job.Legible sep) :
    (reclaim s job).Neat sep fun _ => True := by
  refine Heeds.holding .leases ((neat_query (.leaseTime _) trivial).next fun current _ => ?_)
  split
  · refine (neat_query (.recordFailure _) trivial).next fun _ _ =>
      (neat_query (.retire job.id) trivial).next fun _ _ => ?_
    split
    · exact (neat_query (.enqueue _) (neat_returnEntry h _)).next fun _ _ => neat_pure trivial
    · exact neat_pure trivial
  · exact neat_pure trivial

theorem neat_reclaimEach {jobs : List Job} (h : ∀ job ∈ jobs, job.Legible sep) (count : Nat) :
    (reclaimEach s jobs count).Neat sep fun _ => True := by
  induction jobs generalizing count with
  | nil => exact neat_pure trivial
  | cons job jobs ih =>
    simp only [List.mem_cons, forall_eq_or_imp] at h
    exact (neat_reclaim h.1).next fun _ _ => ih h.2 _

theorem neat_sweep (now : Int64) : (sweep s now).Neat sep fun _ => True :=
  (neat_query .leases trivial).next fun _ hjobs =>
    neat_reclaimEach (fun job hjob => hjobs job (List.mem_filter.1 hjob).1) 0

end Parts

section Read

variable {s : Settings}

theorem neat_ofExcept {parsed : Except PayloadError α} {f : α → Program β} {goal : β → Prop}
    (h : ∀ value, parsed = .ok value → (f value).Neat sep goal) :
    (ofExcept parsed >>= f).Neat sep goal := by
  cases parsed with
  | ok value => exact h value rfl
  | error error => exact nofun

theorem neat_uploadJobs (hsep : sep ∈ s.delimiters.separators) (body : String) :
    (uploadJobs s body).Neat sep fun _ => True := by
  refine neat_ofExcept fun jobs hread => neat_acceptJobs fun job hjob => ?_
  have hplain := NewJob.plain_of_parseBatch hread fun _ hline =>
    Delimiters.entry_not_mem_of_mem_entries hline
  exact (hplain job hjob).not_mem hsep

theorem neat_uploadHarvest (hsep : sep ∈ s.delimiters.separators) (body : String) :
    (uploadHarvest s body).Neat sep fun _ => True :=
  neat_ofExcept fun _ hread =>
    neat_acceptHarvest fun job hjob => (Harvest.plain_of_parse hread job hjob).not_mem hsep

theorem neat_renewLease (body : String) : (renewLease s body).Neat sep fun _ => True :=
  neat_ofExcept fun lease _ => neat_renew lease

theorem neat_reportJob (node : Peer) (client body : String) :
    (reportJob s node client body).Neat sep fun _ => True :=
  neat_ofExcept fun report _ => neat_acceptReport node client report

end Read
end Coordinator
end CrawlCluster
