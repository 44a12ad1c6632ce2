import CrawlCluster.Proofs.Coordinator.Honouring
import CrawlCluster.Proofs.Node.Calls
import CrawlCluster.Worker

/-!
A worker at one end of a connection and a leader whose store works at the other, call by call. Main
statements: over the wire too the leader owes what it hands out, and takes what it owes.
-/

set_option autoImplicit false

namespace CrawlCluster

namespace Node

open Coordinator (Site)

variable {σ ν : Type}

/-- A frame that fits is read by the leader it is sent to as what it is. -/
theorem serve_fitting (link : Link ν) (site : Site σ) (conn : Connection) {here : Placed σ ν}
    {d : Delimiters} (hd : d.Framing) (hnode : here.node.delimiters = d)
    (hlead : here.node.members.role = .leader) {r : Frame.Request} {kind : Frame.RequestKind}
    (hkind : Frame.RequestKind.ofCode? r.code = some kind) (hfits : r.Fits d) :
    serve link site conn (r.encode d) here =
      ((here.node.handle site conn kind r).1.encode d,
        { here with node := (here.node.handle site conn kind r).2 }) := by
  have hread := hfits.readRequest hd []
  rw [List.append_nil] at hread
  rw [serve_frame link site conn here hnode hread, dispatch_leader hlead hkind]

theorem serve_tooLong (link : Link ν) (site : Site σ) (conn : Connection) {here : Placed σ ν}
    {d : Delimiters} (hnode : here.node.delimiters = d) {r : Frame.Request} (hbody : r.body = [])
    (hentry : d.entry ∉ Text.encode (r.header.encode d))
    (hlong : Frame.maxHeaderLength < (Text.encode (r.header.encode d)).length) :
    serve link site conn (r.encode d) here =
      ((Frame.Response.clientError Frame.HeaderError.tooLong.message).encode d, here) := by
  have hread := Frame.readRequest_tooLong hentry hlong
  have hfirst : (Frame.readRequest d (r.encode d)).1.item? = some (.error .tooLong) := by
    rw [hread]
    rfl
  have hended : (Frame.readRequest d []).1 = .ended :=
    congrArg Prod.fst (Frame.readFrame_open (by simp))
  have hall : Frame.readRequests d (r.encode d) = [.error .tooLong] := by
    rw [Frame.readRequests, Frame.takeRequests_item hfirst, hread, hbody,
      Frame.takeRequests_ended hended]
  simp only [serve, hnode, hall, respondAll, respond, List.flatMap_cons, List.flatMap_nil,
    List.append_nil]

end Node

namespace Worker

open Client (Call Error told)
open Coordinator (Books Program)
open Node (Placed serve)

variable {ν : Type}

structure Exchange where
  call : Call
  result : Except Error call.Value
  answer : Bytes

/-- Both ends of a connection between a worker and a leader. -/
structure Line (ν : Type) where
  there : Placed ScriptedStore ν
  /-- What the leader's clock shows, call by call. -/
  clock : Nat → Int64
  /-- What arrived and was not read yet. -/
  unread : Bytes := []
  log : List Exchange := []

/-- The service that a worker called `client` gets over a connection, one call after the other. -/
def overLine [ScanOrder] (link : Link ν) (conn : Connection) (client : String) : Service
    (Line ν) where
  answer call line :=
    let site := line.there.node.settings.scriptedSite (line.clock 0)
    let (answer, there) := serve link site conn ((call.request {} client).encode {}) line.there
    let (result, unread) := call.receive {} (line.unread ++ answer)
    let log := line.log ++ [{ call, result, answer }]
    (result, { there, clock := fun n => line.clock (n + 1), unread, log })

/-- The request fits a frame, and its answer a buffer. -/
structure Exchange.Passes (client : String) (e : Exchange) : Prop where
  fits : (e.call.request {} client).Fits {}
  size : e.answer.length ≤ Client.bufferLimit

instance (client : String) (e : Exchange) : Decidable (e.Passes client) :=
  decidable_of_iff ((e.call.request {} client).Fits {} ∧ e.answer.length ≤ Client.bufferLimit)
    ⟨fun ⟨fits, size⟩ => ⟨fits, size⟩, fun h => ⟨h.fits, h.size⟩⟩

namespace Line

def Passes (client : String) (line : Line ν) : Prop := ∀ e ∈ line.log, e.Passes client

/-- There was a time for every lease, and what was counted stayed within the counters. -/
structure InRange (line : Line ν) : Prop where
  leases : line.there.node.desk.store.store.exhausted = false
  counters : (Stats.recordAll line.there.node.desk.events {}).isSome = true

instance (client : String) (line : Line ν) : Decidable (line.Passes client) :=
  inferInstanceAs (Decidable (∀ e ∈ line.log, e.Passes client))

structure Ready (line : Line ν) : Prop where
  sound : line.there.node.Sound
  leads : line.there.node.members.role = .leader
  faultless : line.there.node.desk.store.Faultless
  read : line.unread = []

def books (line : Line ν) : Books := line.there.node.desk.plain.books

end Line

section Answer

variable [ScanOrder] (link : Link ν) (conn : Connection) (client : String) (call : Call)
variable {line : Line ν} {operation : Program call.Value}

theorem answer_of_serve (hread : line.unread = []) {response : Frame.Response}
    {there : Placed ScriptedStore ν}
    (hserved : serve link (line.there.node.settings.scriptedSite (line.clock 0)) conn
      ((call.request {} client).encode {}) line.there = (response.encode {}, there))
    (hlength : response.message.length ≤ Client.bufferLimit) :
    (overLine link conn client).answer call line = (call.result {} (.ok response),
      { there, clock := fun n => line.clock (n + 1),
        log := line.log ++ [⟨call, call.result {} (.ok response), response.encode {}⟩] }) := by
  have hresponse := Client.readResponse_encode Delimiters.framing_default (Nat.le_refl _) hlength []
  rw [List.append_nil] at hresponse
  simp only [overLine, hserved, hread, List.nil_append, Call.receive, hresponse]

/-- What the operation behind a call ensures, the call comes to. -/
theorem answer_comes (hready : line.Ready)
    (hoperation : call.operation? line.there.node.settings line.there.node.members.me client =
      some operation)
    (hplain : call.Plain {}) {goal : Except JobError call.Value → Coordinator.State Store → Prop}
    (hensures : operation.Ensures .working (line.clock 0) goal line.there.node.desk.plain)
    (hpasses : ((overLine link conn client).answer call line).2.Passes client) :
    ∃ result left next events, (overLine link conn client).answer call line = (told result, next) ∧
      goal result left ∧ next.Ready ∧ next.books = { left.books with events } := by
  let site := line.there.node.settings.scriptedSite (line.clock 0)
  let served := serve link site conn ((call.request {} client).encode {}) line.there
  let handled := line.there.node.handle site conn call.kind (call.request {} client)
  obtain ⟨hfits, hsize⟩ : (Exchange.mk call _ served.1).Passes client :=
    hpasses _ (List.mem_append_right line.log List.mem_cons_self)
  have hserved : served = (handled.1.encode {}, { line.there with node := handled.2 }) :=
    Node.serve_fitting link site conn Delimiters.framing_default hready.sound.delimiters
      hready.leads (Frame.RequestKind.ofCode?_code call.kind) hfits
  have hlength : handled.1.message.length ≤ Client.bufferLimit := by
    rw [hserved, Frame.Response.encode_eq, List.length_append, List.length_cons] at hsize
    omega
  obtain ⟨hresult, more, -, hleft⟩ :=
    Node.handle_call (line.clock 0) conn hready.sound hoperation hplain
  let direct := operation.run site line.there.node.desk
  obtain ⟨hgoal, hfaultless⟩ : goal direct.1 direct.2.plain ∧ direct.2.store.Faultless :=
    hensures.run_working hready.faultless
  have hanswer := answer_of_serve link conn client call hready.read hserved hlength
  refine ⟨_, _, _, handled.2.desk.events, hanswer.trans (Prod.ext hresult rfl), hgoal, ?_, ?_⟩
  · refine ⟨hready.sound.handle _ (line.clock 0) conn call.kind (call.request {} client),
      ?_, ?_, rfl⟩
    · exact (Node.handle_kept site conn call.kind _ line.there.node).2.trans hready.leads
    · show handled.2.desk.store.Faultless
      rw [hleft]
      exact hfaultless
  · show handled.2.desk.plain.books = _
    rw [hleft]
    rfl

variable (hready : line.Ready)
include hready

theorem takeJob_served
    (hpasses : ((overLine link conn client).answer .takeJob line).2.Passes client) :
    ∃ assignment next, (overLine link conn client).answer .takeJob line = (.ok assignment, next) ∧
      next.Ready ∧ next.books.Honours assignment ∧
      ∀ sep ∈ ({} : Delimiters).separators, assignment.Legible sep := by
  obtain ⟨_, left, next, events, hanswer, ⟨assignment, rfl, hhonours, hlegible⟩, hnext, hbooks⟩ :=
    answer_comes link conn client .takeJob hready rfl trivial
      Coordinator.takeJob_honoured hpasses
  refine ⟨assignment, next, hanswer, hnext, ?_, fun sep hsep => ?_⟩
  · rw [hbooks]
    cases assignment <;> exact hhonours
  · exact hlegible sep (hready.sound.legible sep hsep)

theorem renew_served (lease : Lease) (hjobId : ({} : Delimiters).fieldChar ∉ lease.jobId.toList)
    (hheld : (line.books.store.held? lease).isSome)
    (hpasses : ((overLine link conn client).answer (.renewLease lease) line).2.Passes client) :
    ∃ leaseTime next,
      (overLine link conn client).answer (.renewLease lease) line = (.ok leaseTime, next) ∧
      next.Ready ∧ (next.books.store.held? { lease with leaseTime }).isSome := by
  obtain ⟨_, left, next, events, hanswer, ⟨leaseTime, rfl, hrenewed⟩, hnext, hbooks⟩ :=
    answer_comes link conn client (.renewLease lease) hready rfl hjobId
      (Coordinator.renew_honoured hheld) hpasses
  refine ⟨leaseTime, next, hanswer, hnext, ?_⟩
  rw [hbooks]
  exact hrenewed

theorem done_served {operation : Program String} {done : call.Value}
    (hoperation : call.operation? line.there.node.settings line.there.node.members.me client =
      some (do let _ ← operation; return done))
    (hplain : call.Plain {})
    (hensures : operation.Ensures .working (line.clock 0)
      (fun result _ => ∃ text, result = .ok text) line.there.node.desk.plain)
    (hpasses : ((overLine link conn client).answer call line).2.Passes client) :
    ∃ next, (overLine link conn client).answer call line = (.ok done, next) ∧ next.Ready := by
  have hdone : (do let _ ← operation; return done : Program call.Value).Ensures .working
      (line.clock 0) (fun result _ => result = .ok done) line.there.node.desk.plain := by
    refine Program.ensures_map (hensures.mono ?_)
    rintro _ left ⟨text, rfl⟩
    rfl
  obtain ⟨_, left, next, events, hanswer, rfl, hnext, -⟩ :=
    answer_comes link conn client call hready hoperation hplain hdone hpasses
  exact ⟨next, hanswer, hnext⟩

theorem report_served {report : Report} (hplain : report.Plain {})
    (hheld : (line.books.store.held? report.lease).isSome)
    (hpasses : ((overLine link conn client).answer (.reportJob report) line).2.Passes client) :
    ∃ next, (overLine link conn client).answer (.reportJob report) line = (.ok (), next) ∧
      next.Ready :=
  done_served link conn client (.reportJob report) hready rfl hplain
    (Coordinator.report_honoured _ client hheld) hpasses

theorem harvest_served {harvest : Harvest} (hplain : harvest.Plain {})
    (hdirective : line.books.outstanding = some harvest.directive)
    (hpasses : ((overLine link conn client).answer (.uploadHarvest harvest) line).2.Passes client) :
    ∃ next, (overLine link conn client).answer (.uploadHarvest harvest) line = (.ok (), next) ∧
      next.Ready :=
  done_served link conn client (.uploadHarvest harvest) hready rfl hplain
    (Coordinator.harvest_honoured hdirective) hpasses

end Answer

end Worker
end CrawlCluster
