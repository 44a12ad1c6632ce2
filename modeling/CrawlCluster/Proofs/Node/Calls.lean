import CrawlCluster.Client
import CrawlCluster.Proofs.Node.Reached

set_option autoImplicit false

namespace CrawlCluster

namespace Coordinator

variable {σ α : Type}

theorem Program.run_events (site : Site σ) (p : Program α) (s : State σ) :
    ∃ more, (p.run site s).2.events = s.events ++ more ∧ ∀ earlier,
      p.run site { s with events := earlier } =
        ((p.run site s).1, { (p.run site s).2 with events := earlier ++ more }) := by
  induction p generalizing s with
  | done result => exact ⟨[], (List.append_nil _).symm, fun _ => by simp [run]⟩
  | act action next ih =>
    cases action with
    | record event =>
      obtain ⟨more, hmore, hsame⟩ := ih () { s with events := s.events ++ [event] }
      refine ⟨event :: more, ?_, fun earlier => ?_⟩
      · simpa [run, Action.run] using hmore
      · simpa [run, Action.run] using hsame (earlier ++ [event])
    | ask call =>
      obtain ⟨more, hmore, hsame⟩ := ih (s.ask site call).1 (s.ask site call).2
      exact ⟨more, hmore, hsame⟩
    | readClock => exact ih _ s
    | outstanding => exact ih _ s
    | crawlId => exact ih _ s
    | setOutstanding directive => exact ih () _
    | setCrawlId id => exact ih () _
    | acquire lock => exact ih () s
    | release lock => exact ih () s

end Coordinator

namespace Client

open Coordinator (Program Settings)
open CrawlCluster.Frame (Response)

theorem readResponse_encode {d : Delimiters} (hd : d.Framing) {r : Response} {room : Nat}
    (hroom : room ≤ bufferLimit) (hlength : r.message.length ≤ room) (rest : Bytes) :
    readResponse room d (r.encode d ++ rest) = (.ok r, rest) := by
  have hheader : r.header.length < UInt64.size :=
    Nat.lt_of_le_of_lt (Nat.le_trans hlength hroom) bufferLimit_lt_size
  have hlong : ¬ room < r.header.length := Nat.not_lt.2 hlength
  have hfits : r.header.length ≤ (r.message ++ rest).length := by
    simp [Response.header]
  rw [Response.encode_eq, List.append_assoc, List.cons_append]
  simp only [readResponse, Frame.cutAt_append (Frame.ResponseHeader.entry_not_mem hd r.header),
    Text.decode?_encode, Frame.ResponseHeader.parse_encode hd hheader, if_neg hlong, if_pos hfits]
  simp only [Response.header, List.take_left, List.drop_left]

/-- What a client is told of what an operation came to. -/
def told {α : Type} : Except JobError α → Except Error α
  | .ok value => .ok value
  | .error error => .error (.turnedDown error.response.status error.response.text)

namespace Call

def operation? (s : Settings) (node : Peer) (client : String) :
    (call : Call) → Option (Program call.Value)
  | .takeJob => some (Coordinator.takeJob s)
  | .renewLease lease => some (Coordinator.renew lease)
  | .reportJob report => some do
    let _ ← Coordinator.acceptReport s node client report
    return ()
  | .uploadJobs jobs => some do
    let _ ← Coordinator.acceptJobs s jobs
    return ()
  | .uploadHarvest harvest => some do
    let _ ← Coordinator.acceptHarvest s harvest
    return ()
  | .listPeers => none

/-- What a call is given can be written down. -/
def Plain (d : Delimiters) : Call → Prop
  | .takeJob | .listPeers => True
  | .renewLease lease => d.fieldChar ∉ lease.jobId.toList
  | .reportJob report => report.Plain d
  | .uploadJobs jobs => ∀ job ∈ jobs, job.Plain d
  | .uploadHarvest harvest => harvest.Plain d

variable {d : Delimiters} {call : Call}

theorem result_success (text : String) :
    call.result d (.ok (.success text)) = call.decode d (.success text) := rfl

theorem result_error (error : JobError) : call.result d (.ok error.response) =
    .error (.turnedDown error.response.status error.response.text) := by
  cases error <;> rfl

theorem decode_takeJob (response : Response) : Call.takeJob.decode d response =
    ofPayload (Assignment.parse d response.text) := rfl

theorem decode_listPeers (response : Response) : Call.listPeers.decode d response =
    parsePeers d response.text := rfl

theorem decode_renewLease {lease : Lease} {response : Response} {leaseTime : Int64}
    (h : Text.Numeral.int64? (Text.trim response.text) = some leaseTime) :
    (Call.renewLease lease).decode d response = .ok leaseTime := by
  unfold Call.decode
  simp only [h]

theorem result_map {result : Except JobError call.Value} {say : call.Value → String}
    (h : ∀ value, result = .ok value → call.decode d (.success (say value)) = .ok value) :
    call.result d (.ok (Node.jobResponse (result.map say))) = told result := by
  cases result with
  | ok value =>
    refine (result_success (say value)).trans ?_
    exact h value rfl
  | error error => exact result_error error

theorem result_discard {result : Except JobError String} {value : call.Value}
    (h : ∀ text, call.decode d (.success text) = .ok value) :
    call.result d (.ok (Node.jobResponse result)) = told (result.map fun _ => value) := by
  cases result with
  | ok text => exact (result_success text).trans (h text)
  | error error => exact result_error error

theorem kind_isJob {s : Settings} {node : Peer} {client : String} {operation : Program call.Value}
    (h : call.operation? s node client = some operation) : call.kind.isJob = true := by
  cases call <;> first | rfl | cases h

end Call
end Client

namespace Node

open Client (Call told)
open Coordinator (Program State)

variable {ν : Type} {node : Node ScriptedStore}

theorem success_text (text : String) : (Frame.Response.success text).text = text :=
  Text.decodeLossy_encode text

section

variable [ScanOrder]

/-- What the node runs on the body of a call is the operation, with its result as text. -/
theorem jobProgram_call {call : Call} {client : String} {operation : Program call.Value}
    (hd : node.delimiters = {})
    (hoperation : call.operation? node.settings node.members.me client = some operation)
    (hplain : call.Plain {}) :
    ∃ program, node.jobProgram? client (call.body {}) call.kind = some program ∧
      ∀ (s : Coordinator.Settings) (now : Int64) (desk : State ScriptedStore),
        desk.store.store.Legible ({} : Delimiters).fieldChar →
        (program.run (s.scriptedSite now) desk).2 = (operation.run (s.scriptedSite now) desk).2 ∧
          call.result {} (.ok (jobResponse (program.run (s.scriptedSite now) desk).1)) =
            told (operation.run (s.scriptedSite now) desk).1 := by
  have hsettings : node.settings.delimiters = {} := hd
  cases call with
  | takeJob =>
    cases hoperation
    refine ⟨_, rfl, fun s now desk hlegible => ?_⟩
    rw [Program.run_map]
    refine ⟨rfl, Call.result_map fun assignment hassignment => ?_⟩
    have hwritten : assignment.Legible ({} : Delimiters).fieldChar :=
      (run_neat s now Coordinator.neat_takeJob (by decide) hlegible).2 assignment hassignment
    rw [hd, Call.decode_takeJob, success_text,
      Assignment.parse_encode Delimiters.clear_default (by decide) hwritten.plain]
    rfl
  | renewLease lease =>
    cases hoperation
    have hread : Coordinator.renewLease node.settings (lease.encode {}) =
        Coordinator.renew lease := by
      rw [Coordinator.renewLease, hsettings, Lease.parse_encode Delimiters.clear_default hplain]
      rfl
    refine ⟨_, rfl, fun s now desk _ => ?_⟩
    rw [Call.body, hread, Program.run_map]
    refine ⟨rfl, Call.result_map fun leaseTime _ => Call.decode_renewLease ?_⟩
    rw [success_text, Text.Numeral.trim_repr_int, Text.Numeral.int64?_repr]
  | reportJob report =>
    cases hoperation
    have hread : Coordinator.reportJob node.settings node.members.me client (report.encode {}) =
        Coordinator.acceptReport node.settings node.members.me client report := by
      rw [Coordinator.reportJob, hsettings, Report.parse_encode Delimiters.clear_default hplain]
      rfl
    refine ⟨_, rfl, fun s now desk _ => ?_⟩
    rw [Call.body, hread, Program.run_map]
    exact ⟨rfl, Call.result_discard fun _ => rfl⟩
  | uploadJobs jobs =>
    cases hoperation
    have hread : Coordinator.uploadJobs node.settings (NewJob.encodeBatch {} jobs) =
        Coordinator.acceptJobs node.settings jobs := by
      rw [Coordinator.uploadJobs, hsettings,
        NewJob.parseBatch_encodeBatch Delimiters.clear_default hplain]
      rfl
    refine ⟨_, rfl, fun s now desk _ => ?_⟩
    rw [Call.body, hread, Program.run_map]
    exact ⟨rfl, Call.result_discard fun _ => rfl⟩
  | uploadHarvest harvest =>
    cases hoperation
    have hread : Coordinator.uploadHarvest node.settings (harvest.encode {}) =
        Coordinator.acceptHarvest node.settings harvest := by
      rw [Coordinator.uploadHarvest, hsettings,
        Harvest.parse_encode Delimiters.clear_default hplain]
      rfl
    refine ⟨_, rfl, fun s now desk _ => ?_⟩
    rw [Call.body, hread, Program.run_map]
    exact ⟨rfl, Call.result_discard fun _ => rfl⟩
  | listPeers => cases hoperation

/-- The node acts on a call as the operation does, its request counted besides. -/
theorem handle_call (now : Int64) (conn : Connection) {client : String} {call : Call}
    {operation : Program call.Value} (hsound : node.Sound)
    (hoperation : call.operation? node.settings node.members.me client = some operation)
    (hplain : call.Plain {}) :
    let site := node.settings.scriptedSite now
    let direct := operation.run site node.desk
    let handled := node.handle site conn call.kind (call.request {} client)
    call.result {} (.ok handled.1) = told direct.1 ∧
      ∃ more, direct.2.events = node.desk.events ++ more ∧
        handled.2 = { node with desk := { direct.2 with
          events := node.desk.events ++ .request node.members.me client call.kind :: more } } := by
  intro site direct handled
  have hbody : Text.decode? (call.request {} client).body = some (call.body {}) :=
    Text.decode?_encode _
  obtain ⟨program, hprogram, hsame⟩ := jobProgram_call hsound.delimiters hoperation hplain
  let counted := node.record (.request node.members.me client call.kind)
  have hhandled : handled = (jobResponse (program.run site counted.desk).1,
      { counted with desk := (program.run site counted.desk).2 }) :=
    handle_job site conn (Call.kind_isJob hoperation) hbody hprogram
  obtain ⟨hleft, hanswer⟩ := hsame node.settings now counted.desk (hsound.legible _ (by decide))
  obtain ⟨more, hmore, hearlier⟩ := operation.run_events site node.desk
  have hrun : operation.run site counted.desk = (direct.1, { direct.2 with
      events := node.desk.events ++ [.request node.members.me client call.kind] ++ more }) :=
    hearlier _
  rw [hrun] at hleft hanswer
  refine ⟨?_, more, hmore, ?_⟩
  · rw [hhandled]
    exact hanswer
  · rw [hhandled, hleft, List.append_assoc, List.singleton_append]
    rfl

/-- A call to a leader of a cluster that keeps to the separators there are by default: the client is
told what came of the operation on what it asked with, and the leader is left as the operation
leaves it, its request counted besides. The answer is no longer than a buffer can be. -/
theorem calls_add_nothing (link : Link ν) (now : Int64) (conn : Connection) (net : ν)
    {client : String} {call : Call} {operation : Program call.Value} (hreached : node.Reached)
    (hlead : node.members.role = .leader)
    (hoperation : call.operation? node.settings node.members.me client = some operation)
    (hplain : call.Plain {}) (hfits : (call.request {} client).Fits {}) :
    let site := node.settings.scriptedSite now
    let direct := operation.run site node.desk
    let served := serve link site conn ((call.request {} client).encode {}) ⟨node, net⟩
    served.1.length ≤ Client.bufferLimit →
      call.receive {} served.1 = (told direct.1, []) ∧ served.2.net = net ∧
        ∃ more, direct.2.events = node.desk.events ++ more ∧
          served.2.node = { node with desk := { direct.2 with
            events :=
              node.desk.events ++ .request node.members.me client call.kind :: more } } := by
  intro site direct served hsize
  have hsound := hreached.sound
  have hread := hfits.readRequest Delimiters.framing_default []
  rw [List.append_nil] at hread
  have hhere : (Placed.mk node net).node.members.role = .leader := hlead
  let handled := node.handle site conn call.kind (call.request {} client)
  have hserved : served = (handled.1.encode {}, ⟨handled.2, net⟩) := by
    refine (serve_frame link site conn ⟨node, net⟩ hsound.delimiters hread).trans ?_
    rw [dispatch_leader hhere (Frame.RequestKind.ofCode?_code call.kind)]
  obtain ⟨hanswer, more, hmore, hleft⟩ := handle_call now conn hsound hoperation hplain
  rw [hserved] at hsize ⊢
  have hlength : handled.1.message.length ≤ Client.bufferLimit := by
    rw [Frame.Response.encode_eq, List.length_append, List.length_cons] at hsize
    omega
  have hresponse := Client.readResponse_encode Delimiters.framing_default (Nat.le_refl _) hlength []
  rw [List.append_nil] at hresponse
  refine ⟨?_, rfl, more, hmore, hleft⟩
  rw [Call.receive, hresponse]
  exact congrArg (·, []) hanswer

end

def worker : Connection where
  remote := { ip := Net.Ip.loopback, port := 40000 }
  socket := ⟨"worker"⟩

def beginner : Node ScriptedStore where
  settings := { minQueued := 1 }
  members := { role := .leader }
  desk := { store := { turns := fun n =>
    { now := 5, fault := if n = 1 then some (.transient "down") else none } } }

def supplied : Node ScriptedStore :=
  (serve .nobody (beginner.settings.scriptedSite 5) worker
    (Text.encode "upjb?w?12\nhttps://x?1\n") ⟨beginner, ()⟩).2.node

theorem calls_add_nothing_supplied :
    let call : Call := .takeJob
    let operation := Coordinator.takeJob supplied.settings
    let site := supplied.settings.scriptedSite 5
    let direct := operation.run site supplied.desk
    let served := serve .nobody site worker ((call.request {} "w").encode {}) ⟨supplied, ()⟩
    supplied.Reached ∧ supplied.members.role = .leader ∧
      call.operation? supplied.settings supplied.members.me "w" = some operation ∧
      call.Plain {} ∧ (call.request {} "w").Fits {} ∧ served.1.length ≤ Client.bufferLimit ∧
      direct.1 = .ok (.spider "job-0" "https://x" 5 3600) ∧
      call.receive {} served.1 = (told direct.1, []) ∧ served.2.net = () ∧
      ∃ more, direct.2.events = supplied.desk.events ++ more ∧
        served.2.node = { supplied with desk := { direct.2 with
          events := supplied.desk.events ++
            .request supplied.members.me "w" call.kind :: more } } := by
  intro call operation site direct served
  have hreached : supplied.Reached :=
    Reached.served (.fresh rfl rfl) .nobody 5 worker (Text.encode "upjb?w?12\nhttps://x?1\n") ()
  have hlead : supplied.members.role = .leader := by decide +kernel
  have hfits : (call.request {} "w").Fits {} :=
    ⟨by decide, by decide, by decide, by decide⟩
  have hsize : served.1.length ≤ Client.bufferLimit := by decide +kernel
  have hdirect : direct.1 = .ok (.spider "job-0" "https://x" 5 3600) := by decide +kernel
  exact ⟨hreached, hlead, rfl, trivial, hfits, hsize, hdirect,
    calls_add_nothing .nobody 5 worker () hreached hlead rfl trivial hfits hsize⟩

end Node
end CrawlCluster
