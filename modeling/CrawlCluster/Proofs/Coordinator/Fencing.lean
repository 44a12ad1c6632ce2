import CrawlCluster.Proofs.Coordinator.Transition
import Mathlib.Logic.Function.Basic

set_option autoImplicit false

namespace CrawlCluster.Coordinator

/-- The leases that are out, each under the id of its job. -/
abbrev Ledger := String → Option Job

def Ledger.unexpired (now : Int64) (out : Ledger) : Ledger :=
  fun id => (out id).filter fun job => !job.isExpired now

namespace Request

def note (request : Request) (result : Except JobError Answer) (out : Ledger) : Ledger :=
  match request, result with
  | .takeJob, .ok (.assignment (.spider id url leaseTime timeout)) =>
    Function.update out id (some { id, url, leaseTime, timeout })
  | .renew lease, .ok (.leaseTime leaseTime) =>
    Function.update out lease.jobId ((out lease.jobId).map fun job => { job with leaseTime })
  | .report _ _ said, .ok _ => Function.update out said.lease.jobId none
  | .sweep now, .ok _ => out.unexpired now
  | _, _ => out

def granted? (request : Request) (result : Except JobError Answer) : Option Lease :=
  match request, result with
  | .takeJob, .ok (.assignment (.spider id _ leaseTime _)) => some ⟨id, leaseTime⟩
  | .renew lease, .ok (.leaseTime leaseTime) => some ⟨lease.jobId, leaseTime⟩
  | _, _ => none

end Request

namespace Entry

variable (s : Settings)

def note (out : Ledger) (entry : Entry) : Ledger :=
  match entry.operation.read s with
  | .ok request => request.note entry.result out
  | .error _ => out

def granted? (entry : Entry) : Option Lease :=
  match entry.operation.read s with
  | .ok request => request.granted? entry.result
  | .error _ => none

end Entry

def ledger (s : Settings) (past : List Entry) : Ledger := past.foldl (Entry.note s) fun _ => none

def grants (s : Settings) (past : List Entry) : List Lease := past.filterMap (Entry.granted? s)

/-- The lease is the one granted last for its job, and was not finished or reclaimed since. -/
def Counts (s : Settings) (past : List Entry) (lease : Lease) : Prop :=
  (ledger s past lease.jobId).map (·.leaseTime) = some lease.leaseTime

def terms (job : Job) : Int64 × Int64 := (job.leaseTime, job.timeout)

def Ledger.Tells (out : Ledger) (store : Store) : Prop :=
  ∀ id, (out id).map terms = (store.leased? id).map terms

variable {s : Settings}

theorem Ledger.Tells.leaseTime {out : Ledger} {store : Store} (h : out.Tells store) (id : String) :
    (out id).map (·.leaseTime) = (store.leased? id).map (·.leaseTime) := by
  have hfst := congrArg (Option.map Prod.fst) (h id)
  simpa [Option.map_map, Function.comp_def, terms] using hfst

theorem isExpired_of_terms {job row : Job} (h : terms job = terms row) (now : Int64) :
    job.isExpired now = row.isExpired now := by
  obtain ⟨htime, htimeout⟩ := Prod.mk.injEq .. ▸ h
  simp [Job.isExpired, htime, htimeout]

theorem Ledger.Tells.grant {out : Ledger} {store : Store} (h : out.Tells store) {now : Int64}
    {job row : Job} (hrow : terms row = (store.grantTime now, job.timeout)) :
    Ledger.Tells (Function.update out job.id (some row)) (store.grant now job) := by
  intro id
  rw [Store.leased?_grant]
  by_cases hid : id = job.id
  · subst hid
    rw [Function.update_self, if_pos rfl, Option.map_some, hrow]
    rfl
  · rw [Function.update_of_ne hid, if_neg (Ne.symm hid)]
    exact h id

theorem Ledger.Tells.erase {out : Ledger} {store left : Store} (h : out.Tells store) {gone : String}
    (hleft : ∀ id, left.leased? id = if id = gone then none else store.leased? id) :
    Ledger.Tells (Function.update out gone none) left := by
  intro id
  rw [hleft]
  by_cases hid : id = gone
  · subst hid
    simp
  · rw [Function.update_of_ne hid, if_neg hid]
    exact h id

theorem Ledger.Tells.sweep [ScanOrder] {out : Ledger} {b : Books} {left : Store} {before : Int64}
    (h : out.Tells b.store) (hordered : Store.Ordered b.store.current)
    (hleft : ∀ id, left.leased? id =
      if id ∈ (b.overdue before).map (·.id) then none else b.store.leased? id) :
    (out.unexpired before).Tells left := by
  intro id
  have hid := h id
  rw [hleft, Ledger.unexpired]
  cases hrow : b.store.leased? id with
  | none =>
    rw [hrow, Option.map_none, Option.map_eq_none_iff] at hid
    simp [hid]
  | some row =>
    rw [hrow] at hid
    obtain ⟨job, hjob, hterms⟩ := Option.map_eq_some_iff.1 hid
    obtain ⟨hmem, hrowid⟩ := (Store.leased?_eq_some_iff hordered).1 hrow
    have hexpired := isExpired_of_terms hterms before
    have hgone : id ∈ (b.overdue before).map (·.id) ↔ row.isExpired before = true :=
      hrowid ▸ hordered.id_mem_due hmem before
    by_cases hrowExpired : row.isExpired before = true
    · rw [if_pos (hgone.2 hrowExpired), hjob]
      simp [Option.filter, hexpired, hrowExpired]
    · rw [if_neg (mt hgone.1 hrowExpired), hjob]
      simp [Option.filter, hexpired, hrowExpired, hterms]

theorem Ledger.Tells.of_intake {out : Ledger} {moves : List Move} {store left : Store}
    (h : out.Tells store) (hmoves : Moves s moves store left)
    (hintake : ∀ move ∈ moves, move.isIntake = true) : out.Tells left := by
  obtain ⟨hcurrent, -⟩ := hmoves.current_of_intake hintake
  intro id
  rw [h id, Store.leased?, Store.leased?, hcurrent]

theorem isIntake_of_mem_enter {jobs : List NewJob} :
    ∀ move ∈ jobs.map .enter, Move.isIntake move = true := by
  simp [Move.isIntake]

theorem isIntake_of_mem_harvest {brought : Harvest} {b : Books} :
    ∀ move ∈ adopting brought.directive.crawlId b ++ brought.jobs.map .enter,
      Move.isIntake move = true := by
  intro move hmove
  rcases List.mem_append.1 hmove with hadopt | henter
  · unfold adopting at hadopt
    split at hadopt
    · simp at hadopt
    · rw [List.mem_singleton.1 hadopt]
      rfl
  · exact isIntake_of_mem_enter move henter

theorem Transition.tells [ScanOrder] {now : Int64} {request : Request}
    {result : Except JobError Answer}
    {b left : Books} {out : Ledger} (h : Transition s now request result b left)
    (hordered : Store.Ordered b.store.current) (hout : out.Tells b.store) :
    (request.note result out).Tells left.store := by
  cases h with
  | vacant => exact hout
  | admitted _ hmoves => exact hout.of_intake hmoves isIntake_of_mem_enter
  | harvested _ hmoves => exact hout.of_intake hmoves isIntake_of_mem_harvest
  | deprecated => exact hout
  | leased _ hmove =>
    cases hmove with
    | @lease now q queue _ hqueue =>
      have htold : out.Tells { b.store with queue } := hout
      exact htold.grant rfl
  | idle => exact hout
  | directed => exact hout
  | @renewed lease job leaseTime _ store hheld hmove =>
    obtain ⟨hjob, -⟩ := Store.held?_eq_some_iff.1 hheld
    have hid : job.id = lease.jobId := by simpa using List.find?_some hjob
    cases hmove with
    | renew now hrow =>
      have htold := hout lease.jobId
      rw [hjob, Option.map_some] at htold
      obtain ⟨known, hknown, hterms⟩ := Option.map_eq_some_iff.1 htold
      simp only [Request.note, hknown, Option.map_some]
      rw [← hid]
      refine hout.grant ?_
      have htimeout : known.timeout = job.timeout := congrArg Prod.snd hterms
      simp [terms, htimeout]
  | renewalRejected => exact hout
  | @finished node client said job _ store hheld _ hmove =>
    obtain ⟨hjob, -⟩ := Store.held?_eq_some_iff.1 hheld
    have hid : job.id = said.lease.jobId := by simpa using List.find?_some hjob
    refine hout.erase ?_
    intro id
    cases hmove with
    | finish hrow => rw [Store.leased?_retire, hid]
  | @failed node client said job _ store hheld _ hmove =>
    obtain ⟨hjob, -⟩ := Store.held?_eq_some_iff.1 hheld
    have hid : job.id = said.lease.jobId := by simpa using List.find?_some hjob
    refine hout.erase ?_
    intro id
    rw [hmove.leased?_of_fail, hid]
  | reportRejected => exact hout
  | swept hmoves =>
    refine hout.sweep hordered ?_
    intro id
    rw [hmoves.leased?_of_fail, List.map_map]
    rfl

/-- A lease is granted at the time the store has for it, which is its latest from then on. -/
theorem Transition.granted [ScanOrder] {now : Int64} {request : Request}
    {result : Except JobError Answer}
    {b left : Books} (h : Transition s now request result b left) :
    (request.granted? result = none ∧ left.store.lastLease = b.store.lastLease) ∨
      ∃ lease t, request.granted? result = some lease ∧
        lease.leaseTime = b.store.grantTime t ∧ left.store.lastLease = lease.leaseTime := by
  cases h with
  | vacant => exact .inl ⟨rfl, rfl⟩
  | admitted _ hmoves => exact .inl ⟨rfl, (hmoves.current_of_intake isIntake_of_mem_enter).2⟩
  | harvested _ hmoves => exact .inl ⟨rfl, (hmoves.current_of_intake isIntake_of_mem_harvest).2⟩
  | deprecated => exact .inl ⟨rfl, rfl⟩
  | leased _ hmove =>
    cases hmove with
    | lease t hqueue => exact .inr ⟨_, t, rfl, rfl, rfl⟩
  | idle => exact .inl ⟨rfl, rfl⟩
  | directed => exact .inl ⟨rfl, rfl⟩
  | renewed _ hmove =>
    cases hmove with
    | renew t hjob => exact .inr ⟨_, t, rfl, rfl, rfl⟩
  | renewalRejected => exact .inl ⟨rfl, rfl⟩
  | finished _ _ hmove =>
    cases hmove with
    | finish hjob => exact .inl ⟨rfl, rfl⟩
  | failed _ _ hmove => exact .inl ⟨rfl, hmove.lastLease_of_fail⟩
  | reportRejected => exact .inl ⟨rfl, rfl⟩
  | swept hmoves => exact .inl ⟨rfl, hmoves.lastLease_of_fail⟩

theorem Request.note_leaseTime {request : Request} {result : Except JobError Answer} {out : Ledger}
    {lease : Lease}
    (h : (request.note result out lease.jobId).map (·.leaseTime) = some lease.leaseTime) :
    (out lease.jobId).map (·.leaseTime) = some lease.leaseTime ∨
      request.granted? result = some lease := by
  unfold Request.note at h
  split at h
  · next id url leaseTime timeout =>
    by_cases hid : lease.jobId = id
    · right
      rw [hid, Function.update_self, Option.map_some, Option.some.injEq] at h
      have htime : leaseTime = lease.leaseTime := h
      rw [Request.granted?, ← hid, htime]
    · rw [Function.update_of_ne hid] at h
      exact .inl h
  · next renewed leaseTime =>
    by_cases hid : lease.jobId = renewed.jobId
    · right
      rw [hid, Function.update_self, Option.map_map] at h
      obtain ⟨job, -, hjob⟩ := Option.map_eq_some_iff.1 h
      have htime : leaseTime = lease.leaseTime := hjob
      rw [Request.granted?, ← hid, htime]
    · rw [Function.update_of_ne hid] at h
      exact .inl h
  · next said answer =>
    by_cases hid : lease.jobId = said.lease.jobId
    · rw [hid, Function.update_self] at h
      simp at h
    · rw [Function.update_of_ne hid] at h
      exact .inl h
  · next before answer =>
    left
    obtain ⟨job, hjob, htime⟩ := Option.map_eq_some_iff.1 h
    exact Option.map_eq_some_iff.2 ⟨job, (Option.filter_eq_some_iff.1 hjob).1, htime⟩
  · exact .inl h

/-- The times of all leases granted can still be outdone. -/
def InRange (s : Settings) (past : List Entry) : Prop :=
  ∀ lease ∈ grants s past, lease.leaseTime < Int64.maxValue

/-- What the answers tell about the table of leases and the time granted last. -/
structure Fenced (s : Settings) (past : List Entry) (b : Books) : Prop where
  tells : (ledger s past).Tells b.store
  le_lastLease : ∀ lease ∈ grants s past, lease.leaseTime ≤ b.store.lastLease
  lastLease : b.store.lastLease = 0 ∨ ∃ lease ∈ grants s past, lease.leaseTime = b.store.lastLease

@[simp] theorem grants_append (s : Settings) (past : List Entry) (entry : Entry) :
    grants s (past ++ [entry]) = grants s past ++ (entry.granted? s).toList := by
  cases h : entry.granted? s <;> simp [grants, h]

@[simp] theorem ledger_append (s : Settings) (past : List Entry) (entry : Entry) :
    ledger s (past ++ [entry]) = entry.note s (ledger s past) := by
  simp [ledger]

theorem InRange.of_append {past : List Entry} {entry : Entry} (h : InRange s (past ++ [entry])) :
    InRange s past := by
  intro lease hlease
  refine h lease ?_
  rw [grants_append]
  exact List.mem_append_left _ hlease

namespace Fenced

variable {past : List Entry} {b left : Books}

theorem counts_iff (h : Fenced s past b) (lease : Lease) :
    Counts s past lease ↔ b.store.held? lease ≠ none := by
  rw [Counts, h.tells.leaseTime, ne_eq, Store.held?_eq_none_iff, not_not]

theorem lastLease_lt (h : Fenced s past b) (hrange : InRange s past) :
    b.store.lastLease < Int64.maxValue := by
  rcases h.lastLease with hzero | ⟨lease, hlease, htime⟩
  · rw [hzero]
    decide
  · rw [← htime]
    exact hrange lease hlease

theorem lt_grantTime (h : Fenced s past b) (hrange : InRange s past) (t : Int64) {lease : Lease}
    (hlease : lease ∈ grants s past) : lease.leaseTime < b.store.grantTime t :=
  Int64.lt_of_le_of_lt (h.le_lastLease lease hlease)
    (Store.lastLease_lt_grantTime (h.lastLease_lt hrange))

theorem step [ScanOrder] {step : Step} {result : Except JobError Answer} (h : Fenced s past b)
    (hrange : InRange s past) (hordered : Store.Ordered b.store.current)
    (hcomes : Operation.Comes s step result b left) :
    Fenced s (past ++ [⟨step.operation, result⟩]) left := by
  cases hread : step.operation.read s with
  | error error =>
    obtain ⟨-, rfl⟩ := (Operation.comes_error hread).1 hcomes
    refine ⟨?_, ?_, ?_⟩
    · simpa [Entry.note, hread] using h.tells
    · simpa [Entry.granted?, hread] using h.le_lastLease
    · simpa [Entry.granted?, hread] using h.lastLease
  | ok request =>
    have htransition := (Operation.comes_ok hread).1 hcomes
    have htells : (ledger s (past ++ [⟨step.operation, result⟩])).Tells left.store := by
      have hnote := htransition.tells hordered h.tells
      simpa [Entry.note, hread] using hnote
    rcases htransition.granted with ⟨hnone, hlast⟩ | ⟨lease, t, hsome, htime, hlast⟩
    · refine ⟨htells, ?_, ?_⟩
      · simpa [Entry.granted?, hread, hnone, hlast] using h.le_lastLease
      · simpa [Entry.granted?, hread, hnone, hlast] using h.lastLease
    · have hgrants : grants s (past ++ [⟨step.operation, result⟩]) = grants s past ++ [lease] := by
        simp [Entry.granted?, hread, hsome]
      refine ⟨htells, ?_, .inr ⟨lease, ?_, hlast.symm⟩⟩
      · intro earlier hearlier
        rw [hgrants, List.mem_append, List.mem_singleton] at hearlier
        rw [hlast]
        rcases hearlier with hearlier | rfl
        · rw [htime]
          exact Int64.le_of_lt (h.lt_grantTime hrange t hearlier)
        · exact Int64.le_refl _
      · simp [hgrants]

theorem counts_append [ScanOrder] {step : Step} {result : Except JobError Answer} {lease : Lease}
    (hcomes : Operation.Comes s step result b left)
    (h : Counts s (past ++ [⟨step.operation, result⟩]) lease) :
    Counts s past lease ∨ ∃ t, lease.leaseTime = b.store.grantTime t := by
  rw [Counts, ledger_append, Entry.note] at h
  cases hread : step.operation.read s with
  | error error =>
    rw [hread] at h
    exact .inl h
  | ok request =>
    rw [hread] at h
    rcases Request.note_leaseTime h with hbefore | hgranted
    · exact .inl hbefore
    · right
      rcases ((Operation.comes_ok hread).1 hcomes).granted with ⟨hnone, -⟩ | ⟨_, t, hsome, htime, -⟩
      · rw [hnone] at hgranted
        contradiction
      · rw [hgranted, Option.some.injEq] at hsome
        exact ⟨t, hsome ▸ htime⟩

theorem not_counts_append [ScanOrder] {step : Step} {result : Except JobError Answer}
    {lease : Lease} (h : Fenced s past b) (hrange : InRange s past) (hlease : lease ∈ grants s past)
    (hcounts : ¬Counts s past lease) (hcomes : Operation.Comes s step result b left) :
    ¬Counts s (past ++ [⟨step.operation, result⟩]) lease := by
  intro hback
  rcases counts_append hcomes hback with hbefore | ⟨t, htime⟩
  · exact hcounts hbefore
  · have hlt := h.lt_grantTime hrange t hlease
    rw [htime] at hlt
    exact Int64.lt_irrefl hlt

end Fenced

def Operation.presented? (s : Settings) (operation : Operation) : Option Lease :=
  match operation.read s with
  | .ok (.renew lease) => some lease
  | .ok (.report _ _ said) => some said.lease
  | _ => none

theorem Operation.Comes.presented [ScanOrder] {step : Step} {result : Except JobError Answer}
    {b left : Books} {lease : Lease} (h : Operation.Comes s step result b left)
    (hlease : step.operation.presented? s = some lease) :
    (b.store.held? lease ≠ none ∧ ∃ answer, result = .ok answer) ∨
      (b.store.held? lease = none ∧ result = .error .notExpected ∧ left = b) := by
  unfold Operation.presented? at hlease
  split at hlease
  · next hread =>
    obtain rfl := Option.some.inj hlease
    cases (Operation.comes_ok hread).1 h with
    | renewed hheld => exact .inl ⟨by simp [hheld], _, rfl⟩
    | renewalRejected hheld => exact .inr ⟨hheld, rfl, rfl⟩
  · next hread =>
    obtain rfl := Option.some.inj hlease
    cases (Operation.comes_ok hread).1 h with
    | finished hheld => exact .inl ⟨by simp [hheld], _, rfl⟩
    | failed hheld => exact .inl ⟨by simp [hheld], _, rfl⟩
    | reportRejected hheld => exact .inr ⟨hheld, rfl, rfl⟩
  · contradiction

theorem Operation.Comes.renewal [ScanOrder] {body : String} {now leaseTime : Int64} {b left : Books}
    (h : Operation.Comes s ⟨.renewLease body, now⟩ (.ok (.leaseTime leaseTime)) b left) :
    ∃ t, leaseTime = b.store.grantTime t := by
  obtain ⟨request, -, htransition⟩ := h.answered
  cases htransition with
  | renewed hheld hmove =>
    cases hmove with
    | renew t => exact ⟨t, rfl⟩

namespace Course

section

variable [ScanOrder]

theorem run_fenced (s : Settings) (clock : Nat → Int64) (steps : List Step)
    (hrange : InRange s (run s clock steps).past) :
    Fenced s (run s clock steps).past (run s clock steps).books := by
  refine run_keeps s clock (fun past b => InRange s past → Fenced s past b) [] steps ?_ ?_ hrange
  · intro _
    exact ⟨fun _ => rfl, by simp [run, grants], .inl rfl⟩
  · intro past b left step result hd hfenced hcomes hrange
    have hbefore := hrange.of_append
    exact (hfenced hbefore).step hbefore hd.ordered hcomes

theorem not_counts_later (s : Settings) (clock : Nat → Int64) (steps more : List Step)
    (hrange : InRange s (run s clock (steps ++ more)).past) {lease : Lease}
    (hlease : lease ∈ grants s (run s clock steps).past)
    (hcounts : ¬Counts s (run s clock steps).past lease) :
    ¬Counts s (run s clock (steps ++ more)).past lease := by
  have hkept := run_keeps s clock (fun past b => InRange s past →
    Fenced s past b ∧ lease ∈ grants s past ∧ ¬Counts s past lease) steps more ?_ ?_ hrange
  · exact hkept.2.2
  · intro hbefore
    exact ⟨run_fenced s clock steps hbefore, hlease, hcounts⟩
  · intro past b left step result hd hkept hcomes hafter
    have hbefore := hafter.of_append
    obtain ⟨hfenced, hgranted, hnot⟩ := hkept hbefore
    refine ⟨hfenced.step hbefore hd.ordered hcomes, ?_,
      hfenced.not_counts_append hbefore hgranted hnot hcomes⟩
    rw [grants_append]
    exact List.mem_append_left _ hgranted

theorem presented_iff (s : Settings) (clock : Nat → Int64) (steps : List Step)
    (hrange : InRange s (run s clock steps).past) (step : Step) {lease : Lease}
    (hlease : step.operation.presented? s = some lease) :
    let c := run s clock steps
    ((∃ answer, (c.ask s step).1 = .ok answer) ↔ Counts s c.past lease) ∧
      (¬Counts s c.past lease →
        (c.ask s step).1 = .error .notExpected ∧ (c.take s step).books = c.books) := by
  intro c
  have hcounts : Counts s c.past lease ↔ c.books.store.held? lease ≠ none :=
    (run_fenced s clock steps hrange).counts_iff lease
  have hcomes : Operation.Comes s step (c.ask s step).1 c.books (c.take s step).books :=
    (run_sound s clock steps).comes step
  rcases hcomes.presented hlease with ⟨hheld, haccepted⟩ | ⟨hheld, hrejected, hbooks⟩
  · refine ⟨⟨fun _ => hcounts.2 hheld, fun _ => haccepted⟩, ?_⟩
    intro hnot
    exact absurd (hcounts.2 hheld) hnot
  · refine ⟨⟨?_, fun hc => absurd hheld (hcounts.1 hc)⟩, fun _ => ⟨hrejected, hbooks⟩⟩
    rintro ⟨answer, hanswer⟩
    rw [hrejected] at hanswer
    contradiction

/-- From any life of a coordinator on: a renewal or a report is accepted just when it presents the
lease that counts, and changes nothing otherwise; a renewal grants a time later than all before;
and a lease that stopped counting is turned down for good. -/
theorem fencing_exact (s : Settings) (clock : Nat → Int64) (steps : List Step)
    (hrange : InRange s (run s clock steps).past) :
    let c := run s clock steps
    (∀ step lease, Operation.presented? s step.operation = some lease →
      ((∃ answer, (c.ask s step).1 = .ok answer) ↔ Counts s c.past lease) ∧
      (¬Counts s c.past lease →
        (c.ask s step).1 = .error .notExpected ∧ (c.take s step).books = c.books)) ∧
    (∀ body now leaseTime, (c.ask s ⟨.renewLease body, now⟩).1 = .ok (.leaseTime leaseTime) →
      ∀ earlier ∈ grants s c.past, earlier.leaseTime < leaseTime) ∧
    ∀ lease ∈ grants s c.past, ¬Counts s c.past lease → ∀ more,
      let later := run s clock (steps ++ more)
      InRange s later.past → ∀ step, Operation.presented? s step.operation = some lease →
        (later.ask s step).1 = .error .notExpected ∧ (later.take s step).books = later.books := by
  intro c
  refine ⟨?_, ?_, ?_⟩
  · intro step lease hlease
    exact presented_iff s clock steps hrange step hlease
  · intro body now leaseTime hanswer earlier hearlier
    have hcomes := (run_sound s clock steps).comes (s := s) ⟨.renewLease body, now⟩
    rw [show ((run s clock steps).ask s ⟨.renewLease body, now⟩).1 = _ from hanswer] at hcomes
    obtain ⟨t, rfl⟩ := hcomes.renewal
    exact (run_fenced s clock steps hrange).lt_grantTime hrange t hearlier
  · intro lease hlease hcounts more later hlater step hpresented
    exact (presented_iff s clock _ hlater step hpresented).2
      (not_counts_later s clock steps more hlater hlease hcounts)

end

def renewedOnce : List Step :=
  [⟨.uploadJobs "https://x?1?10\n", 0⟩, ⟨.takeJob, 0⟩, ⟨.renewLease "job-0?1000", 0⟩]

theorem fencing_exact_renewedOnce :
    let s : Settings := { minQueued := 1 }
    let later := run s (fun _ => 1000) (renewedOnce ++ [⟨.sweep 2000, 0⟩])
    InRange s (run s (fun _ => 1000) renewedOnce).past ∧
      (later.ask s ⟨.renewLease "job-0?1000", 0⟩).1 = .error .notExpected := by
  intro s later
  have hrange : InRange s (run s (fun _ => 1000) renewedOnce).past := by
    unfold InRange
    decide +kernel
  have hlater : InRange s later.past := by
    unfold InRange
    decide +kernel
  have hcounts : ¬Counts s (run s (fun _ => 1000) renewedOnce).past ⟨"job-0", 1000⟩ := by
    unfold Counts
    decide +kernel
  have hrejected := (fencing_exact s (fun _ => 1000) renewedOnce hrange).2.2 ⟨"job-0", 1000⟩
    (by decide +kernel) hcounts [⟨.sweep 2000, 0⟩] hlater ⟨.renewLease "job-0?1000", 0⟩
    (by decide +kernel)
  exact ⟨hrange, hrejected.1⟩

end Course
end CrawlCluster.Coordinator
