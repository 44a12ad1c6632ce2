import CrawlCluster.Proofs.Coordinator.Refusals
import CrawlCluster.Proofs.Node.Serving

set_option autoImplicit false

namespace CrawlCluster.Node

open Coordinator (KeptIfRefused)
open CrawlCluster.Frame (HeaderError RequestKind)

variable {σ ν : Type}

def forwards (node : Node σ) : Except HeaderError Frame.Request → Bool
  | .error _ => false
  | .ok r =>
    match RequestKind.ofCode? r.code with
    | none => false
    | some kind => kind.leaderOnly && !node.members.isLeader

/-- Why the client is to blame, and what it is told. -/
inductive Refusal (d : Delimiters) (conn : Connection) :
    Except HeaderError Frame.Request → Frame.Response → Prop where
  | header (error : HeaderError) : Refusal d conn (.error error) (.clientError error.message)
  | unknownCode {r : Frame.Request} (hkind : RequestKind.ofCode? r.code = none) :
      Refusal d conn (.ok r) (.clientError "Unknown request type.")
  | heartbeat {r : Frame.Request} (hkind : RequestKind.ofCode? r.code = some .heartbeat) :
      Refusal d conn (.ok r) (.clientError "Heartbeat not expected.")
  | joiner {r : Frame.Request} (hkind : RequestKind.ofCode? r.code = some .join)
      (hbad : Roster.joinerIdentity d r.body conn.remote = none) :
      Refusal d conn (.ok r) (.clientError "Incorrect amount of arguments.")
  | notText {r : Frame.Request} {kind : RequestKind}
      (hkind : RequestKind.ofCode? r.code = some kind) (hjob : kind.isJob = true)
      (hbad : Text.decode? r.body = none) :
      Refusal d conn (.ok r) (.clientError "Payload is not valid utf-8.")
  | job {r : Frame.Request} {kind : RequestKind}
      (hkind : RequestKind.ofCode? r.code = some kind) (hjob : kind.isJob = true)
      {error : JobError}
      (hblame : (∃ unread, error = .payload unread) ∨ error = .notExpected ∨
        error = .crawlDeprecated) :
      Refusal d conn (.ok r) (.clientError error.message)

/-- Nothing is done but that at most one request is counted. -/
structure Undisturbed (node left : Node ScriptedStore) : Prop where
  settings : left.settings = node.settings
  members : left.members = node.members
  store : left.desk.store.store = node.desk.store.store
  outstanding : left.desk.outstanding = node.desk.outstanding
  crawlId : left.desk.crawlId = node.desk.crawlId
  counted : left.desk.events = node.desk.events ∨ ∃ client kind,
    left.desk.events = node.desk.events ++ [.request node.members.me client kind]

variable {node : Node ScriptedStore} {conn : Connection} {now : Int64}

theorem Undisturbed.refl : Undisturbed node node := ⟨rfl, rfl, rfl, rfl, rfl, .inl rfl⟩

theorem undisturbed_record (client : String) (kind : RequestKind) :
    Undisturbed node (node.record (.request node.members.me client kind)) :=
  ⟨rfl, rfl, rfl, rfl, rfl, .inr ⟨client, kind, rfl⟩⟩

/-- A node that is as it was after its request was counted, but for the logs of its store. -/
theorem undisturbed_books {client : String} {kind : RequestKind}
    {desk : Coordinator.State ScriptedStore}
    (h : desk.plain.books =
      (node.record (.request node.members.me client kind)).desk.plain.books) :
    Undisturbed node { node with desk } where
  settings := rfl
  members := rfl
  store := congrArg Coordinator.Books.store h
  outstanding := congrArg Coordinator.Books.outstanding h
  crawlId := congrArg Coordinator.Books.crawlId h
  counted := .inr ⟨client, kind, congrArg Coordinator.Books.events h⟩

section

variable [ScanOrder]

theorem kept_jobProgram (now : Int64) {client body : String} {kind : RequestKind}
    {program : Coordinator.Program String}
    (h : node.jobProgram? client body kind = some program) (st : Coordinator.State Store) :
    program.Ensures .failing now (KeptIfRefused st) st := by
  cases kind with
  | uploadJobs =>
    obtain rfl := Option.some.inj h
    exact Coordinator.kept_ofExcept fun jobs => Coordinator.kept_acceptJobs node.settings jobs
  | uploadHarvest =>
    obtain rfl := Option.some.inj h
    exact Coordinator.kept_ofExcept fun harvest =>
      Coordinator.kept_acceptHarvest node.settings harvest
  | takeJob =>
    obtain rfl := Option.some.inj h
    exact Coordinator.kept_bind (Coordinator.unrefusing_takeJob node.settings).kept
      fun _ => Coordinator.Program.unrefusing_pure _
  | renewLease =>
    obtain rfl := Option.some.inj h
    exact Coordinator.kept_bind
      (Coordinator.kept_ofExcept fun lease => Coordinator.kept_renew lease)
      fun _ => Coordinator.Program.unrefusing_pure _
  | reportJob =>
    obtain rfl := Option.some.inj h
    exact Coordinator.kept_ofExcept fun report =>
      Coordinator.kept_acceptReport node.settings node.members.me client report
  | join => contradiction
  | listPeers => contradiction
  | heartbeat => contradiction

theorem refused_job (s : Coordinator.Settings) {kind : RequestKind} {r : Frame.Request}
    (hkind : RequestKind.ofCode? r.code = some kind) (hjob : kind.isJob = true)
    (hblame : (node.handle (s.scriptedSite now) conn kind r).1.status = .clientError) :
    Refusal node.delimiters conn (.ok r) (node.handle (s.scriptedSite now) conn kind r).1 ∧
      Undisturbed node (node.handle (s.scriptedSite now) conn kind r).2 := by
  cases hbody : Text.decode? r.body with
  | none =>
    rw [handle_notText _ _ hjob hbody]
    exact ⟨.notText hkind hjob hbody, undisturbed_record _ _⟩
  | some body =>
    obtain ⟨program, hprogram⟩ := jobProgram?_eq_some hjob node r.client body
    rw [handle_job _ _ hjob hbody hprogram] at hblame ⊢
    let counted := (node.record (.request node.members.me r.client kind)).desk
    have hkept : KeptIfRefused counted.plain (program.run (s.scriptedSite now) counted).1
        (program.run (s.scriptedSite now) counted).2.plain :=
      (kept_jobProgram now hprogram counted.plain).run_failing
    simp only [run] at hblame ⊢
    generalize program.run (s.scriptedSite now) counted = ended at *
    obtain ⟨result, desk⟩ := ended
    cases result with
    | ok text => contradiction
    | error error =>
      have hreason := JobError.isRefusal_iff.1 hblame
      refine ⟨?_, undisturbed_books (hkept error rfl hblame)⟩
      have hresponse : jobResponse (.error error) = .clientError error.message := by
        obtain ⟨unread, rfl⟩ | rfl | rfl := hreason <;> rfl
      rw [hresponse]
      exact .job hkind hjob hreason

omit [ScanOrder] in
theorem refused_takeIn {r : Frame.Request} (hkind : RequestKind.ofCode? r.code = some .join)
    {counted : Node ScriptedStore} (hcounted : Undisturbed node counted)
    (hblame : (counted.takeIn conn r.body).1.status = .clientError) :
    Refusal counted.delimiters conn (.ok r) (counted.takeIn conn r.body).1 ∧
      Undisturbed node (counted.takeIn conn r.body).2 := by
  cases hjoiner : Roster.joinerIdentity counted.delimiters r.body conn.remote with
  | none =>
    simp only [takeIn, hjoiner]
    exact ⟨.joiner hkind hjoiner, hcounted⟩
  | some peer =>
    simp only [takeIn, hjoiner] at hblame
    cases hrole : counted.members.role <;> simp only [hrole] at hblame <;> contradiction

theorem refused_handle (s : Coordinator.Settings) {kind : RequestKind} {r : Frame.Request}
    (hkind : RequestKind.ofCode? r.code = some kind)
    (hblame : (node.handle (s.scriptedSite now) conn kind r).1.status = .clientError) :
    Refusal node.delimiters conn (.ok r) (node.handle (s.scriptedSite now) conn kind r).1 ∧
      Undisturbed node (node.handle (s.scriptedSite now) conn kind r).2 := by
  cases hjob : kind.isJob with
  | true => exact refused_job s hkind hjob hblame
  | false =>
    obtain rfl | rfl | rfl := RequestKind.of_not_isJob hjob
    · exact refused_takeIn hkind (undisturbed_record r.client .join) hblame
    · contradiction
    · exact ⟨.heartbeat hkind, undisturbed_record r.client .heartbeat⟩

theorem refused_respond (link : Link ν) (s : Coordinator.Settings)
    {here : Placed ScriptedStore ν} {received : Except HeaderError Frame.Request}
    (hlocal : here.node.forwards received = false)
    (hblame : (respond link (s.scriptedSite now) conn here received).1.status = .clientError) :
    let answered := respond link (s.scriptedSite now) conn here received
    Refusal here.node.delimiters conn received answered.1 ∧ answered.2.net = here.net ∧
      Undisturbed here.node answered.2.node := by
  cases received with
  | error error => exact ⟨.header error, rfl, .refl⟩
  | ok r =>
    simp only [respond, dispatch] at hblame ⊢
    simp only [forwards] at hlocal
    cases hkind : RequestKind.ofCode? r.code with
    | none => exact ⟨.unknownCode hkind, rfl, .refl⟩
    | some kind =>
      simp only [hkind] at hblame hlocal ⊢
      simp only [hlocal, Bool.false_eq_true, if_false] at hblame ⊢
      obtain ⟨hreason, hkept⟩ := refused_handle s hkind hblame
      exact ⟨hreason, trivial, hkept⟩

/-- Whatever a connection brings, and whichever store calls fail: of what the node answers itself,
an answer that blames the client has one of the reasons for it, and the node is left as it was, at
most one request counted. -/
theorem client_errors_change_nothing (link : Link ν) (s : Coordinator.Settings) (now : Int64)
    (conn : Connection) (here : Placed ScriptedStore ν) (bytes : Bytes)
    {received : Except HeaderError Frame.Request}
    {before after : List (Except HeaderError Frame.Request)}
    (hread : Frame.readRequests here.node.delimiters bytes = before ++ received :: after) :
    let d := here.node.delimiters
    let reached := respondAll link (s.scriptedSite now) conn before here
    let answered := respond link (s.scriptedSite now) conn reached.2 received
    let ended := respondAll link (s.scriptedSite now) conn after answered.2
    serve link (s.scriptedSite now) conn bytes here =
        (reached.1.flatMap (·.encode d) ++ answered.1.encode d ++ ended.1.flatMap (·.encode d),
          ended.2) ∧
      (answered.1.status = .clientError → reached.2.node.forwards received = false →
        Refusal reached.2.node.delimiters conn received answered.1 ∧
          answered.2.net = reached.2.net ∧ Undisturbed reached.2.node answered.2.node) :=
  ⟨serve_split hread, fun hblame hlocal => refused_respond link s hlocal hblame⟩

end

def awaiting : Node ScriptedStore where
  members := { role := .leader }
  desk := {
    store := {
      store := { current := [{ id := "0", leaseTime := 7, url := "https://x" }] }
      turns := fun n => { now := 9, fault := if n = 0 then some (.transient "down") else none } }
    outstanding := some { crawlId := 3, token := 9 } }

/-- Behind a header that is too short, a report under a lease that was renewed since. -/
theorem client_errors_change_nothing_superseded :
    let bytes := Text.encode "gtjb?w\nfnjb?w?6\n0?5?1?"
    let received : Except HeaderError Frame.Request := .ok ⟨"fnjb", "w", Text.encode "0?5?1?"⟩
    let site := Coordinator.Settings.scriptedSite 9 {}
    let conn : Connection :=
      { remote := { ip := Net.Ip.loopback, port := 40000 }, socket := ⟨"worker"⟩ }
    let reached := respondAll .nobody site conn [.error .tooShort] ⟨awaiting, ()⟩
    let answered := respond .nobody site conn reached.2 received
    Frame.readRequests {} bytes = [.error .tooShort] ++ received :: [] ∧
      answered.1.status = .clientError ∧ reached.2.node.forwards received = false ∧
      Refusal {} conn received answered.1 ∧ Undisturbed reached.2.node answered.2.node := by
  intro bytes received site conn reached answered
  have hread : Frame.readRequests {} bytes = [.error .tooShort] ++ received :: [] := by
    decide +kernel
  have hblame : answered.1.status = .clientError := by decide +kernel
  have hlocal : reached.2.node.forwards received = false := by decide +kernel
  obtain ⟨hreason, -, hkept⟩ := (client_errors_change_nothing .nobody {} 9 conn ⟨awaiting, ()⟩
    bytes hread).2 hblame hlocal
  exact ⟨hread, hblame, hlocal, hreason, hkept⟩

end CrawlCluster.Node
