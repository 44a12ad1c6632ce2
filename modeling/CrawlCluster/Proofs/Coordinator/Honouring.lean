import CrawlCluster.Proofs.Coordinator.Legible
import CrawlCluster.Proofs.Coordinator.Transition

set_option autoImplicit false

namespace CrawlCluster.Coordinator

/-- The lease counts, or the harvest of the directive is awaited. -/
def Books.Honours (b : Books) : Assignment → Prop
  | .spider jobId _ leaseTime _ => (b.store.held? ⟨jobId, leaseTime⟩).isSome
  | .crawl directive => b.outstanding = some directive
  | .idle _ => True

theorem held?_grant (now : Int64) (job : Job) (store : Store) :
    (store.grant now job).held? ⟨job.id, store.grantTime now⟩ =
      some { job with leaseTime := store.grantTime now } :=
  Store.held?_eq_some_iff.2 ⟨by rw [Store.leased?_grant, if_pos rfl], rfl⟩

variable {s : Settings} {now : Int64} {st : State Store}

variable [ScanOrder]

/-- Whatever is handed out: a job that was in the queue, or a directive. -/
theorem takeJob_honoured : (takeJob s).Ensures .working now (fun result left =>
    ∃ assignment, result = .ok assignment ∧ left.books.Honours assignment ∧
      ∀ sep, st.books.store.Legible sep → assignment.Legible sep) st := by
  refine takeJob_transition.mono fun result left hmade => ?_
  generalize left.books = after at hmade ⊢
  cases result with
  | error error => cases hmade
  | ok assignment =>
    refine ⟨assignment, rfl, ?_⟩
    cases hmade with
    | leased hdepth hmove =>
      cases hmove with
      | @lease t q queue _ hqueue =>
        have hheld := held?_grant t q.job { st.books.store with queue }
        refine ⟨Option.isSome_of_eq_some hheld, fun sep hlegible => ?_⟩
        exact hlegible.queue q (by simp [hqueue])
    | idle hqueue hfresh => exact ⟨trivial, fun _ _ => trivial⟩
    | directed hdepth hfresh => exact ⟨rfl, fun _ _ => trivial⟩

theorem renew_honoured {lease : Lease} (h : (st.books.store.held? lease).isSome) :
    (renew lease).Ensures .working now (fun result left =>
      ∃ leaseTime, result = .ok leaseTime ∧
        (left.books.store.held? { lease with leaseTime }).isSome) st := by
  refine (renew_transition (s := {}) lease).mono fun result left hmade => ?_
  generalize left.books = after at hmade ⊢
  cases result with
  | error error =>
    cases hmade with
    | renewalRejected hheld => simp [hheld] at h
  | ok leaseTime =>
    refine ⟨leaseTime, rfl, ?_⟩
    cases hmade with
    | @renewed _ job _ _ _ hheld hmove =>
      have hid : job.id = lease.jobId := by
        simpa using List.find?_some (Store.held?_eq_some_iff.1 hheld).1
      cases hmove with
      | renew t hjob =>
        rw [← hid]
        exact Option.isSome_of_eq_some (held?_grant t job st.books.store)

/-- A report on a lease that counts is taken, whatever it says. -/
theorem report_honoured (node : Peer) (client : String) {said : Report}
    (h : (st.books.store.held? said.lease).isSome) :
    (acceptReport s node client said).Ensures .working now
      (fun result _ => ∃ text, result = .ok text) st := by
  refine (report_transition node client said).mono fun result left hmade => ?_
  generalize left.books = after at hmade
  cases result with
  | ok text => exact ⟨text, rfl⟩
  | error error =>
    cases hmade with
    | reportRejected hheld => simp [hheld] at h

theorem harvest_honoured {brought : Harvest} (h : st.books.outstanding = some brought.directive) :
    (acceptHarvest s brought).Ensures .working now
      (fun result _ => ∃ text, result = .ok text) st := by
  refine (harvest_transition brought).mono fun result left hmade => ?_
  generalize left.books = after at hmade
  cases result with
  | ok text => exact ⟨text, rfl⟩
  | error error =>
    cases hmade with
    | deprecated htoken => exact absurd (by rw [h]; rfl) htoken

end CrawlCluster.Coordinator
