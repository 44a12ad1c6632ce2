import CrawlCluster.Proofs.Coordinator.Manners
import CrawlCluster.Proofs.Coordinator.Working

set_option autoImplicit false

namespace CrawlCluster

def StoreCall.isRead : StoreCall → Bool
  | .connect _ | .leased _ | .leaseTime _ | .depth | .crawlId | .leases => true
  | .enqueue _ | .takeTop | .grant _ | .retire _ | .recordFailure _ | .setCrawlId _ => false

theorem Store.perform_read [ScanOrder] {call : StoreCall} (h : call.isRead = true) (now : Int64)
    (s : Store) :
    (s.perform now call).2 = s := by
  cases call with
  | leased id =>
    simp only [perform]
    split <;> rfl
  | connect | leaseTime | depth | crawlId | leases => rfl
  | enqueue | takeTop | grant | retire | recordFailure | setCrawlId => contradiction

def JobError.IsRefusal (error : JobError) : Prop := error.response.status = .clientError

theorem JobError.isRefusal_iff {error : JobError} : error.IsRefusal ↔
    (∃ unread, error = .payload unread) ∨ error = .notExpected ∨ error = .crawlDeprecated := by
  cases error <;> simp [IsRefusal, response, Frame.Response.clientError, Frame.Response.serverError]

namespace Coordinator

open Program

variable {α β : Type}

def Unrefused (result : Except JobError α) : Prop :=
  ∀ error, result = .error error → ¬ error.IsRefusal

abbrev Program.Unrefusing (p : Program α) : Prop := p.Heeds .any Unrefused

theorem unrefused_error {error : JobError} (h : ¬ error.IsRefusal) :
    Unrefused (.error error : Except JobError α) := by
  rintro _ ⟨⟩
  exact h

theorem not_isRefusal_store (error : StoreError) : ¬ (JobError.store error).IsRefusal := by
  simp [JobError.isRefusal_iff]

theorem not_isRefusal_upload (index : Nat) : ¬ (JobError.upload index).IsRefusal := by
  simp [JobError.isRefusal_iff]

namespace Program

theorem unrefusing_pure (value : α) : (pure value : Program α).Unrefusing := nofun

theorem unrefusing_fail {error : JobError} (h : ¬ error.IsRefusal) :
    (fail error : Program α).Unrefusing := unrefused_error h

theorem unrefusing_perform (action : Action) : (perform action).Unrefusing := by
  cases action with
  | ask call => exact ⟨trivial, fun _ _ => nofun⟩
  | _ => exact fun _ => nofun

theorem Heeds.andThen {p : Program α} {f : α → Program β} (hp : p.Unrefusing)
    (hf : ∀ value, (f value).Unrefusing) : (p >>= f).Unrefusing :=
  hp.bind (fun value _ => hf value) fun error hnone => unrefused_error (hnone error rfl)

theorem unrefusing_orFail {error : StoreError → JobError} (h : ∀ e, ¬ (error e).IsRefusal)
    (reply : Except StoreError α) : (orFail error reply).Unrefusing := by
  cases reply with
  | ok value => exact unrefusing_pure value
  | error e => exact unrefusing_fail (h e)

theorem unrefusing_query (call : StoreCall) : (query call).Unrefusing :=
  (unrefusing_perform (.ask call)).andThen (unrefusing_orFail not_isRefusal_store)

end Program

section Parts

theorem unrefusing_enqueueNew (s : Settings) (index : Nat) (jobs : List NewJob) :
    (enqueueNew s index jobs).Unrefusing := by
  induction jobs generalizing index with
  | nil => exact unrefusing_pure ()
  | cons job jobs ih =>
    exact (unrefusing_perform _).andThen fun reply =>
      (unrefusing_orFail (fun _ => not_isRefusal_upload index) reply).andThen fun _ =>
        ih (index + 1)

theorem unrefusing_grant (job : Job) : (grant job).Unrefusing := by
  refine (unrefusing_perform _).andThen fun reply => ?_
  cases reply with
  | ok leaseTime => exact unrefusing_pure _
  | error error =>
    exact (unrefusing_perform _).andThen fun _ => unrefusing_fail (not_isRefusal_store error)

theorem unrefusing_direct (now : Int64) (outstanding fresh : Option Directive) :
    (direct now outstanding fresh).Unrefusing := by
  cases fresh with
  | some directive => exact unrefusing_pure _
  | none =>
    exact (unrefusing_perform _).andThen fun _ =>
      (unrefusing_perform _).andThen fun _ => unrefusing_pure _

theorem unrefusing_takeJob (s : Settings) : (takeJob s).Unrefusing := by
  refine Heeds.holding .crawl ?_
  refine (unrefusing_perform _).andThen fun now => (unrefusing_perform _).andThen fun outstanding =>
    (unrefusing_query _).andThen fun depth => ?_
  split
  · refine (unrefusing_perform _).andThen fun reply => ?_
    split
    · exact unrefusing_grant _
    · exact unrefusing_direct _ _ _
    · exact unrefusing_fail (not_isRefusal_store _)
  · exact unrefusing_direct _ _ _

theorem unrefusing_adoptCrawlId (crawlId : Int32) : (adoptCrawlId crawlId).Unrefusing := by
  refine (unrefusing_perform _).andThen fun known => ?_
  split
  · exact (unrefusing_query _).andThen fun _ => unrefusing_perform _
  · exact unrefusing_pure ()

def deliver (s : Settings) (harvest : Harvest) : Program String := do
  adoptCrawlId harvest.directive.crawlId
  if !harvest.languages.isEmpty then perform (.record (.languages harvest.languages))
  enqueueNew s 0 harvest.jobs
  return uploaded

theorem unrefusing_deliver (s : Settings) (harvest : Harvest) :
    (deliver s harvest).Unrefusing := by
  refine (unrefusing_adoptCrawlId _).andThen fun _ => ?_
  have hrest : (do enqueueNew s 0 harvest.jobs; return uploaded : Program String).Unrefusing :=
    (unrefusing_enqueueNew s 0 harvest.jobs).andThen fun _ => unrefusing_pure _
  split
  · exact (unrefusing_perform _).andThen fun _ => hrest
  · exact hrest

end Parts

/-- If the client is to blame, nothing was written. -/
def KeptIfRefused (st : State Store) : Except JobError α → State Store → Prop :=
  fun result left => ∀ error, result = .error error → error.IsRefusal → left.books = st.books

section Kept

variable [ScanOrder] {now : Int64} {st : State Store}

theorem Program.Heeds.kept {p : Program α} (hp : p.Unrefusing) {left : State Store} :
    p.Ensures .failing now (KeptIfRefused st) left :=
  (hp.ensures Manner.keeps_any trivial now).mono fun _ _ hnone error herror hblame =>
    absurd hblame (hnone.2 error herror)

/-- Checks come first: they write nothing unless they pass, and then the client is not to blame. -/
theorem kept_bind {p : Program α} {f : α → Program β}
    (hp : p.Ensures .failing now (KeptIfRefused st) st) (hf : ∀ value, (f value).Unrefusing) :
    (p >>= f).Ensures .failing now (KeptIfRefused st) st := by
  refine ensures_bind.2 (hp.mono fun result left hkept => ?_)
  cases result with
  | ok value => exact (hf value).kept
  | error error =>
    rintro _ ⟨⟩
    exact hkept error rfl

theorem read_failing {call : StoreCall} (hread : call.isRead = true)
    {reply : Except StoreError call.Reply} {left : State Store}
    (hm : (Action.ask call).May .failing now st reply left) : left.books = st.books := by
  obtain ⟨store, repeats, slept, ⟨t, ht⟩ | ⟨-, rfl⟩, rfl⟩ := hm
  · have hstore := Store.perform_read hread t st.store
    rw [ht] at hstore
    subst hstore
    rfl
  · rfl

/-- A lease is checked by looking it up. -/
theorem kept_fenced (lease : Lease) :
    (fenced lease).Ensures .failing now (fun _ left => left.books = st.books) st := by
  unfold fenced
  rw [ensures_bind, ensures_query]
  intro reply left hm
  have hleft := read_failing rfl hm
  cases reply with
  | error error => exact hleft
  | ok current =>
    simp only [settle, then_ok]
    split
    · rw [ensures_bind]
      intro found next hm'
      have hnext := (read_failing rfl hm').trans hleft
      cases found with
      | ok job => exact hnext
      | error error => cases error <;> exact hnext
    · exact hleft

theorem kept_consume (directive : Directive) :
    (consume directive).Ensures .failing now (KeptIfRefused st) st := by
  unfold consume
  rw [ensures_holding, ensures_bind, ensures_outstanding]
  simp only [then_ok]
  split
  · exact (unrefusing_perform _).kept
  · exact fun _ _ _ => rfl

theorem kept_acceptJobs (s : Settings) (jobs : List NewJob) :
    (acceptJobs s jobs).Ensures .failing now (KeptIfRefused st) st := by
  unfold acceptJobs
  split
  · exact fun _ _ _ => rfl
  · exact ((unrefusing_enqueueNew s 0 jobs).andThen fun _ => unrefusing_pure _).kept

theorem kept_acceptHarvest (s : Settings) (harvest : Harvest) :
    (acceptHarvest s harvest).Ensures .failing now (KeptIfRefused st) st :=
  kept_bind (kept_consume harvest.directive) fun _ => unrefusing_deliver s harvest

theorem kept_renew (lease : Lease) :
    (renew lease).Ensures .failing now (KeptIfRefused st) st := by
  unfold renew
  rw [ensures_holding]
  exact kept_bind ((kept_fenced lease).mono fun _ _ hkept _ _ _ => hkept)
    fun _ => unrefusing_query _

theorem kept_acceptReport (s : Settings) (node : Peer) (client : String) (report : Report) :
    (acceptReport s node client report).Ensures .failing now (KeptIfRefused st) st := by
  unfold acceptReport
  rw [ensures_holding]
  refine kept_bind ((kept_fenced report.lease).mono fun _ _ hkept _ _ _ => hkept) fun job =>
    (unrefusing_perform _).andThen fun _ => ?_
  have hretire (text : String) :
      (do query (.retire job.id); return text : Program String).Unrefusing :=
    (unrefusing_query _).andThen fun _ => unrefusing_pure _
  split
  · exact (unrefusing_query _).andThen fun _ => (unrefusing_perform _).andThen fun _ =>
      unrefusing_pure _
  · refine (unrefusing_query _).andThen fun _ => ?_
    split
    · exact (unrefusing_query _).andThen fun _ => hretire _
    · exact hretire _

theorem kept_ofExcept {parsed : Except PayloadError α} {f : α → Program β}
    (hf : ∀ value, (f value).Ensures .failing now (KeptIfRefused st) st) :
    (ofExcept parsed >>= f).Ensures .failing now (KeptIfRefused st) st := by
  cases parsed with
  | ok value => exact hf value
  | error error => exact fun _ _ _ => rfl

end Kept

end Coordinator
end CrawlCluster
