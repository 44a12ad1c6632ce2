import CrawlCluster.Proofs.Coordinator.Legible
import CrawlCluster.Proofs.Node.Serving

/-!
The states a node comes to, with separators as they are by default, on a store that was empty at
first. Main statement: whatever was sent to it, every job it has can be written down for a worker.
-/

set_option autoImplicit false

namespace CrawlCluster.Node

open Coordinator (Program State)
open CrawlCluster.Frame (HeaderError RequestKind)

variable [ScanOrder]

/-- Besides serving its connections a node retires the leases that ran out; and its place in the
cluster, what it remembers of a crawl and what is to become of its store calls may change at any
time. -/
inductive Reached : Node ScriptedStore → Prop
  | fresh {node : Node ScriptedStore} (hd : node.delimiters = {})
      (hstore : node.desk.store.store = {}) : Reached node
  | served {ν : Type} {node : Node ScriptedStore} (h : Reached node) (link : Link ν) (now : Int64)
      (conn : Connection) (bytes : Bytes) (net : ν) :
      Reached (serve link (node.settings.scriptedSite now) conn bytes ⟨node, net⟩).2.node
  | swept {node : Node ScriptedStore} (h : Reached node) (now : Int64) :
      Reached (node.run (node.settings.scriptedSite now)
        (Coordinator.sweep node.settings now)).2
  | moved {node left : Node ScriptedStore} (h : Reached node)
      (hsettings : left.settings = node.settings)
      (hstore : left.desk.store.store = node.desk.store.store) : Reached left

structure Sound (node : Node ScriptedStore) : Prop where
  delimiters : node.delimiters = {}
  legible : ∀ sep ∈ ({} : Delimiters).separators, node.desk.store.store.Legible sep

variable {ν α : Type} {node : Node ScriptedStore} {good : α → Prop} {sep : Char}

omit [ScanOrder] in
theorem not_mem_jobId (hsep : sep ∈ ({} : Delimiters).separators) (seq : Nat) :
    sep ∉ (Store.jobId seq).toList := by
  have htext : sep ∉ "job-".toList := by
    obtain rfl | rfl := Delimiters.mem_separators.1 hsep <;> decide
  exact Delimiters.clear_default.not_mem_numbered hsep htext seq

theorem run_neat {desk : State ScriptedStore} (s : Coordinator.Settings) (now : Int64)
    {program : Program α} (h : program.Neat sep good)
    (hsep : sep ∈ ({} : Delimiters).separators) (hlegible : desk.store.store.Legible sep) :
    (program.run (s.scriptedSite now) desk).2.store.store.Legible sep ∧
      Coordinator.Yields good (program.run (s.scriptedSite now) desk).1 :=
  have hstore : desk.plain.store.Legible sep := hlegible
  (h.ensures (Coordinator.Manner.keeps_legible (not_mem_jobId hsep)) hstore now).run_failing

omit [ScanOrder] in
theorem neat_jobProgram {client body : String} {kind : RequestKind} {program : Program String}
    (hsep : sep ∈ node.delimiters.separators)
    (h : node.jobProgram? client body kind = some program) : program.Neat sep fun _ => True := by
  cases kind with
  | uploadJobs =>
    obtain rfl := Option.some.inj h
    exact Coordinator.neat_uploadJobs hsep body
  | uploadHarvest =>
    obtain rfl := Option.some.inj h
    exact Coordinator.neat_uploadHarvest hsep body
  | takeJob =>
    obtain rfl := Option.some.inj h
    exact Coordinator.neat_takeJob.next fun _ _ => Coordinator.neat_pure trivial
  | renewLease =>
    obtain rfl := Option.some.inj h
    exact (Coordinator.neat_renewLease body).next fun _ _ => Coordinator.neat_pure trivial
  | reportJob =>
    obtain rfl := Option.some.inj h
    exact Coordinator.neat_reportJob node.members.me client body
  | join => contradiction
  | listPeers => contradiction
  | heartbeat => contradiction

theorem Sound.handle (h : node.Sound) (s : Coordinator.Settings) (now : Int64) (conn : Connection)
    (kind : RequestKind) (req : Frame.Request) :
    (node.handle (s.scriptedSite now) conn kind req).2.Sound := by
  have hdelimiters : (node.handle (s.scriptedSite now) conn kind req).2.delimiters = {} := by
    rw [Node.delimiters, (handle_kept _ conn kind req node).1]
    exact h.delimiters
  refine ⟨hdelimiters, ?_⟩
  cases hjob : kind.isJob with
  | true =>
    cases hbody : Text.decode? req.body with
    | none =>
      rw [handle_notText _ _ hjob hbody]
      exact h.legible
    | some body =>
      obtain ⟨program, hprogram⟩ := jobProgram?_eq_some hjob node req.client body
      rw [handle_job _ _ hjob hbody hprogram]
      intro sep hsep
      let counted := node.record (.request node.members.me req.client kind)
      have hcounted : counted.desk.store.store.Legible sep := h.legible sep hsep
      exact (run_neat s now (neat_jobProgram (h.delimiters ▸ hsep) hprogram) hsep hcounted).1
  | false =>
    rw [handle_store _ conn hjob]
    exact h.legible

theorem Sound.respond {here : Placed ScriptedStore ν} (h : here.node.Sound) (link : Link ν)
    (s : Coordinator.Settings) (now : Int64) (conn : Connection)
    (received : Except HeaderError Frame.Request) :
    (respond link (s.scriptedSite now) conn here received).2.node.Sound := by
  cases received with
  | error error => exact h
  | ok req =>
    simp only [Node.respond, dispatch]
    split
    · exact h
    · split
      · exact h
      · exact h.handle s now conn _ req

theorem Sound.respondAll {here : Placed ScriptedStore ν} (h : here.node.Sound) (link : Link ν)
    (s : Coordinator.Settings) (now : Int64) (conn : Connection)
    (received : List (Except HeaderError Frame.Request)) :
    (respondAll link (s.scriptedSite now) conn received here).2.node.Sound := by
  induction received generalizing here with
  | nil => exact h
  | cons first received ih => exact ih (h.respond link s now conn first)

theorem Reached.sound (h : node.Reached) : node.Sound := by
  induction h with
  | fresh hd hstore => exact ⟨hd, fun sep _ => hstore ▸ Store.legible_empty sep⟩
  | served _ link now conn bytes net ih =>
    exact Sound.respondAll ih link _ now conn _
  | @swept node _ now ih =>
    exact ⟨ih.delimiters, fun sep hsep =>
      (run_neat node.settings now (Coordinator.neat_sweep now) hsep (ih.legible sep hsep)).1⟩
  | moved _ hsettings hstore ih =>
    refine ⟨?_, hstore ▸ ih.legible⟩
    rw [Node.delimiters, hsettings]
    exact ih.delimiters

end CrawlCluster.Node
