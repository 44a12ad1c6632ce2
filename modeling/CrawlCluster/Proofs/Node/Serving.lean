import CrawlCluster.Node.Serve
import CrawlCluster.Proofs.Frame.Reading

set_option autoImplicit false

namespace CrawlCluster

namespace Frame

def RequestKind.isJob : RequestKind → Bool
  | .uploadJobs | .uploadHarvest | .takeJob | .renewLease | .reportJob => true
  | .join | .listPeers | .heartbeat => false

theorem RequestKind.ofCode?_code (kind : RequestKind) : ofCode? kind.code = some kind := by
  cases kind <;> decide

theorem RequestKind.of_not_isJob {kind : RequestKind} (h : kind.isJob = false) :
    kind = .join ∨ kind = .listPeers ∨ kind = .heartbeat := by
  cases kind <;> first | contradiction | simp

theorem RequestKind.leaderOnly_of_isJob {kind : RequestKind} (h : kind.isJob = true) :
    kind.leaderOnly = true := by
  cases kind <;> first | contradiction | rfl

end Frame

namespace Node

open Coordinator (Site)

variable {σ ν : Type} {site : Site σ} {link : Link ν} {conn : Connection}

@[simp] theorem respondAll_append (before after : List (Except Frame.HeaderError Frame.Request))
    (here : Placed σ ν) :
    respondAll link site conn (before ++ after) here =
      ((respondAll link site conn before here).1 ++
          (respondAll link site conn after (respondAll link site conn before here).2).1,
        (respondAll link site conn after (respondAll link site conn before here).2).2) := by
  induction before generalizing here with
  | nil => rfl
  | cons received before ih =>
    simp only [List.cons_append, respondAll, ih]

theorem isLeader_eq_true {s : Roster.State} : s.isLeader = true ↔ s.role = .leader := by
  simp [Roster.State.isLeader]

theorem jobProgram?_eq_some {kind : Frame.RequestKind} (h : kind.isJob = true) (node : Node σ)
    (client body : String) : ∃ program, node.jobProgram? client body kind = some program := by
  cases kind <;> first | exact ⟨_, rfl⟩ | contradiction

theorem handle_job (site : Site σ) (conn : Connection) {kind : Frame.RequestKind}
    (h : kind.isJob = true) {req : Frame.Request} {body : String}
    (hbody : Text.decode? req.body = some body) {node : Node σ}
    {program : Coordinator.Program String}
    (hprogram : node.jobProgram? req.client body kind = some program) :
    let counted := node.record (.request node.members.me req.client kind)
    node.handle site conn kind req =
      (jobResponse (counted.run site program).1, (counted.run site program).2) := by
  cases kind <;> first | contradiction | skip
  all_goals
    cases hprogram
    simp only [handle, hbody]
    rfl

theorem handle_notText (site : Site σ) (conn : Connection) {kind : Frame.RequestKind}
    (h : kind.isJob = true) {req : Frame.Request} (hbody : Text.decode? req.body = none)
    (node : Node σ) :
    node.handle site conn kind req = (.clientError "Payload is not valid utf-8.",
      node.record (.request node.members.me req.client kind)) := by
  cases kind <;> first | contradiction | simp only [handle, hbody]

theorem handle_members (site : Site σ) (conn : Connection) {kind : Frame.RequestKind}
    (h : kind.isJob = true) (req : Frame.Request) (node : Node σ) :
    (node.handle site conn kind req).2.members = node.members ∧
      (node.handle site conn kind req).2.settings = node.settings := by
  cases hbody : Text.decode? req.body with
  | none =>
    rw [handle_notText site conn h hbody]
    exact ⟨rfl, rfl⟩
  | some body =>
    obtain ⟨program, hprogram⟩ := jobProgram?_eq_some h node req.client body
    rw [handle_job site conn h hbody hprogram]
    exact ⟨rfl, rfl⟩

theorem takeIn_kept (conn : Connection) (body : Bytes) (node : Node σ) :
    (node.takeIn conn body).2.settings = node.settings ∧
      (node.takeIn conn body).2.members.role = node.members.role ∧
      (node.takeIn conn body).2.desk = node.desk := by
  unfold takeIn
  simp only
  split
  · exact ⟨rfl, rfl, rfl⟩
  · split <;> exact ⟨rfl, rfl, rfl⟩

theorem handle_store (site : Site σ) (conn : Connection) {kind : Frame.RequestKind}
    (h : kind.isJob = false) (req : Frame.Request) (node : Node σ) :
    (node.handle site conn kind req).2.desk.store = node.desk.store := by
  obtain rfl | rfl | rfl := Frame.RequestKind.of_not_isJob h
  · let counted := node.record (.request node.members.me req.client .join)
    have hstore : (counted.takeIn conn req.body).2.desk.store = counted.desk.store :=
      congrArg Coordinator.State.store (takeIn_kept conn req.body counted).2.2
    exact hstore
  · rfl
  · rfl

theorem handle_kept (site : Site σ) (conn : Connection) (kind : Frame.RequestKind)
    (req : Frame.Request) (node : Node σ) :
    (node.handle site conn kind req).2.settings = node.settings ∧
      (node.handle site conn kind req).2.members.role = node.members.role := by
  cases hjob : kind.isJob with
  | true =>
    obtain ⟨hmembers, hsettings⟩ := handle_members site conn hjob req node
    exact ⟨hsettings, congrArg Roster.State.role hmembers⟩
  | false =>
    obtain rfl | rfl | rfl := Frame.RequestKind.of_not_isJob hjob
    · let counted := node.record (.request node.members.me req.client .join)
      have hkept := takeIn_kept conn req.body counted
      exact ⟨hkept.1, hkept.2.1⟩
    · exact ⟨rfl, rfl⟩
    · exact ⟨rfl, rfl⟩

theorem handle_conn {kind : Frame.RequestKind} (h : kind.isJob = true) (req : Frame.Request)
    (node : Node σ) (conn other : Connection) :
    node.handle site conn kind req = node.handle site other kind req := by
  cases kind <;> first | contradiction | rfl

theorem dispatch_leader {here : Placed σ ν} (hlead : here.node.members.role = .leader)
    {req : Frame.Request} {kind : Frame.RequestKind}
    (hkind : Frame.RequestKind.ofCode? req.code = some kind) :
    dispatch link site conn req here = ((here.node.handle site conn kind req).1,
      { here with node := (here.node.handle site conn kind req).2 }) := by
  simp [dispatch, hkind, isLeader_eq_true.2 hlead]

/-- A leader calls nobody, and still leads when it has answered. -/
theorem respondAll_leader {received : List (Except Frame.HeaderError Frame.Request)}
    {here : Placed σ ν} (hlead : here.node.members.role = .leader) :
    (respondAll link site conn received here).2.net = here.net ∧
      (respondAll link site conn received here).2.node.settings = here.node.settings ∧
      (respondAll link site conn received here).2.node.members.role = .leader := by
  induction received generalizing here with
  | nil => exact ⟨rfl, rfl, hlead⟩
  | cons first received ih =>
    cases first with
    | error error => exact ih hlead
    | ok req =>
      simp only [respondAll, respond]
      cases hkind : Frame.RequestKind.ofCode? req.code with
      | none =>
        simp only [dispatch, hkind]
        exact ih hlead
      | some kind =>
        rw [dispatch_leader hlead hkind]
        obtain ⟨hsettings, hrole⟩ := handle_kept site conn kind req here.node
        have hstill : ({ here with node := (here.node.handle site conn kind req).2 } :
            Placed σ ν).node.members.role = .leader := hrole.trans hlead
        obtain ⟨hnet, hothers, hlast⟩ := ih hstill
        exact ⟨hnet, hothers.trans hsettings, hlast⟩

theorem length_message_le {d : Delimiters} {answers : List Frame.Response}
    {answer : Frame.Response} (h : answer ∈ answers) :
    answer.message.length ≤ (answers.flatMap (·.encode d)).length := by
  obtain ⟨before, after, rfl⟩ := List.append_of_mem h
  rw [List.flatMap_append, List.flatMap_cons, Frame.Response.encode_eq]
  simp only [List.length_append, List.length_cons]
  omega

theorem serve_split {here : Placed σ ν} {bytes : Bytes} {received : Except Frame.HeaderError
    Frame.Request} {before after : List (Except Frame.HeaderError Frame.Request)}
    (hread : Frame.readRequests here.node.delimiters bytes = before ++ received :: after) :
    let d := here.node.delimiters
    let reached := respondAll link site conn before here
    let answered := respond link site conn reached.2 received
    let ended := respondAll link site conn after answered.2
    serve link site conn bytes here =
      (reached.1.flatMap (·.encode d) ++ answered.1.encode d ++ ended.1.flatMap (·.encode d),
        ended.2) := by
  simp only [serve, hread, respondAll_append, respondAll, List.flatMap_append, List.flatMap_cons,
    List.append_assoc]

theorem serve_frame (link : Link ν) (site : Site σ) (conn : Connection) (here : Placed σ ν)
    {d : Delimiters} (hd : here.node.delimiters = d) {r : Frame.Request}
    (hread : Frame.readRequest d (r.encode d) = (.frame r, [])) :
    serve link site conn (r.encode d) here =
      ((dispatch link site conn r here).1.encode d, (dispatch link site conn r here).2) := by
  have hfirst : (Frame.readRequest d (r.encode d)).1.item? = some (.ok r) := by
    rw [hread]
    rfl
  have hended : (Frame.readRequest d []).1 = .ended :=
    congrArg Prod.fst (Frame.readFrame_open (by simp))
  have hall : Frame.readRequests d (r.encode d) = [.ok r] := by
    rw [Frame.readRequests, Frame.takeRequests_item hfirst, hread,
      Frame.takeRequests_ended hended]
  simp only [serve, hd, hall, respondAll, respond, List.flatMap_cons, List.flatMap_nil,
    List.append_nil]

end Node
end CrawlCluster
