import CrawlCluster.Proofs.Worker.Served
import CrawlCluster.Proofs.Worker.Turns

set_option autoImplicit false

namespace CrawlCluster.Worker

open Client (Call Error)
open Node (serve)

variable {ν : Type}

/-! What a worker writes can be written. -/

theorem lease_reportOf (choice : Choice) (lease : Lease) (url : String) :
    (reportOf choice lease url).lease = lease := by
  unfold reportOf
  split <;> rfl

theorem plain_reportOf (choice : Choice) {lease : Lease} {url : String}
    (hjobId : ({} : Delimiters).fieldChar ∉ lease.jobId.toList)
    (hurl : ({} : Delimiters).entryChar ∉ url.toList) : (reportOf choice lease url).Plain {} := by
  have hreason : ∀ reason : Fin 8, Outcome.ofId (Int32.ofNat (reason.val + 2)) =
      .other (Int32.ofNat (reason.val + 2)) := by decide
  unfold reportOf
  split
  · refine ⟨hjobId, hreason choice.reason, fun hlast => ?_⟩
    have hmem := List.mem_of_getLast? hlast
    rw [String.toList_append, List.mem_append] at hmem
    exact hmem.elim (by decide +kernel) hurl
  · exact ⟨hjobId, rfl, by simp⟩

theorem projectUrl_eq (n : UInt32) :
    projectUrl n = "https://example.com/project/" ++ n.toNat.repr := by
  delta projectUrl
  exact Eq.refl _

theorem not_mem_projectUrl (n : UInt32) :
    ∀ sep ∈ ({} : Delimiters).separators, sep ∉ (projectUrl n).toList := by
  intro sep hsep
  have htext : sep ∉ "https://example.com/project/".toList := by
    obtain rfl | rfl := Delimiters.mem_separators.1 hsep <;> decide +kernel
  rw [projectUrl_eq]
  exact Delimiters.clear_default.not_mem_numbered hsep htext _

theorem plain_crawledJob (n : UInt32) (priority : Fin 100) : (crawledJob n priority).Plain {} where
  nonempty hempty := by
    have hlist := congrArg String.toList hempty
    simp [crawledJob, projectUrl_eq] at hlist
  field := not_mem_projectUrl n _ (by decide)
  entry := not_mem_projectUrl n _ (by decide)

theorem plain_harvestOf (count : Nat) (choice : Choice) (directive : Directive) :
    (harvestOf count choice directive).Plain {} where
  languages named hnamed := by
    have hnames : ∀ name ∈ languageNames, ({} : Delimiters).fieldChar ∉ name.toList ∧
        ({} : Delimiters).entryChar ∉ name.toList := by decide
    obtain ⟨i, hi, rfl⟩ := List.mem_mapIdx.1 hnamed
    exact hnames _ (List.getElem_mem hi)
  jobs job hjob := by
    obtain ⟨i, -, rfl⟩ := List.mem_map.1 hjob
    exact plain_crawledJob _ _

/-! A log only grows. -/

section Log

variable [ScanOrder] (link : Link ν) (conn : Connection) (client : String) (count : Nat)

theorem log_answer (call : Call) (line : Line ν) :
    line.log.IsPrefix ((overLine link conn client).answer call line).2.log :=
  List.prefix_append ..

theorem log_process (choice : Choice) (lease : Lease) (url : String) (counts : Counts)
    (line : Line ν) :
    ((overLine link conn client).answer (.renewLease lease) line).2.log.IsPrefix
      (process (overLine link conn client) choice lease url counts line).2.log := by
  unfold process
  split
  · next he => exact he ▸ List.prefix_rfl
  · next he => exact he ▸ log_answer ..

theorem log_step (choice : Choice) (counts : Counts) (line : Line ν) :
    ((overLine link conn client).answer .takeJob line).2.log.IsPrefix
      (step (overLine link conn client) count choice counts line).2.log := by
  unfold step
  split
  · next he => exact he ▸ List.prefix_rfl
  · next he => exact he ▸ (log_answer ..).trans (log_process ..)
  · next he => exact he ▸ log_answer ..
  · next he => exact he ▸ List.prefix_rfl

theorem log_runSteps (choices : List Choice) (counts : Counts) (line : Line ν) :
    line.log.IsPrefix (runSteps (overLine link conn client) count choices counts line).2.log := by
  induction choices generalizing counts line with
  | nil => exact List.prefix_rfl
  | cons choice choices ih =>
    have hstep := (log_answer link conn client .takeJob line).trans
      (log_step link conn client count choice counts line)
    rw [runSteps]
    split
    · next he =>
      rw [he] at hstep
      exact hstep.trans (ih ..)
    · next he => rwa [he] at hstep

end Log

def Line.told (line : Line ν) : List ((call : Call) × Except Error call.Value) :=
  line.log.map fun e => ⟨e.call, e.result⟩

section Steps

variable {link : Link ν} {conn : Connection} {client : String} {line : Line ν}

theorem Line.Passes.of_prefix {later : Line ν} (h : later.Passes client)
    (hlog : line.log.IsPrefix later.log) : line.Passes client :=
  fun e he => h e (hlog.subset he)

variable [ScanOrder]

theorem told_answer {call : Call} {result : Except Error call.Value} {next : Line ν}
    (h : (overLine link conn client).answer call line = (result, next)) :
    next.told = line.told ++ [⟨call, result⟩] := by
  cases h
  exact List.map_append

theorem Goes.told {count : Nat} {choice : Choice} {last : Line ν} {turn : Turn}
    (h : Goes (overLine link conn client) count choice line turn last) :
    last.told = line.told ++ turn.told := by
  cases h with
  | job htaken hrenewed hreported =>
    rw [told_answer hreported, told_answer hrenewed, told_answer htaken, List.append_assoc,
      List.append_assoc]
    rfl
  | crawl htaken hbrought =>
    rw [told_answer hbrought, told_answer htaken, List.append_assoc]
    rfl
  | idle htaken => exact told_answer htaken

/-- Whatever the leader hands out, it takes what the worker makes of it. -/
theorem step_goes (hready : line.Ready) (count : Nat) (choice : Choice) (counts : Counts)
    (hpasses : (step (overLine link conn client) count choice counts line).2.Passes client) :
    ∃ turn last, Goes (overLine link conn client) count choice line turn last ∧ last.Ready := by
  obtain ⟨assignment, line₁, htaken, hready₁, hhonours, hlegible⟩ := takeJob_served link conn client
    hready (hpasses.of_prefix (log_step link conn client count choice counts line))
  have hstep := hpasses
  simp only [step, htaken] at hstep
  cases assignment with
  | idle directive => exact ⟨_, line₁, .idle htaken, hready₁⟩
  | crawl directive =>
    obtain ⟨line₂, hbrought, hready₂⟩ := harvest_served link conn client hready₁
      (plain_harvestOf count choice directive) hhonours hstep
    exact ⟨_, line₂, .crawl htaken hbrought, hready₂⟩
  | spider jobId url granted timeout =>
    obtain ⟨hjobId, -⟩ := hlegible ({} : Delimiters).fieldChar (by decide)
    obtain ⟨-, hurl⟩ := hlegible ({} : Delimiters).entryChar (by decide)
    obtain ⟨leaseTime, line₂, hrenewed, hready₂, hheld⟩ := renew_served link conn client hready₁
      ⟨jobId, granted⟩ hjobId hhonours
      (hstep.of_prefix (log_process link conn client choice ⟨jobId, granted⟩ url counts line₁))
    simp only [process, hrenewed] at hstep
    rw [← lease_reportOf choice ⟨jobId, leaseTime⟩ url] at hheld
    obtain ⟨line₃, hreported, hready₃⟩ := report_served link conn client hready₂
      (plain_reportOf choice hjobId hurl) hheld hstep
    exact ⟨_, line₃, .job htaken hrenewed hreported, hready₃⟩

theorem runSteps_goes (hready : line.Ready) (count : Nat) (choices : List Choice) (counts : Counts)
    (hpasses : (runSteps (overLine link conn client) count choices counts line).2.Passes client) :
    ∃ turns last, runSteps (overLine link conn client) count choices counts line =
        ((.ok (), turns.foldl Turn.counted counts), last) ∧
      List.Forall₂ (Turn.Follows count) choices turns ∧
      last.told = line.told ++ turns.flatMap Turn.told := by
  induction choices generalizing line counts with
  | nil => exact ⟨[], line, rfl, .nil, (List.append_nil _).symm⟩
  | cons choice choices ih =>
    have hfirst : (step (overLine link conn client) count choice counts line).2.Passes client := by
      refine hpasses.of_prefix ?_
      rw [runSteps]
      split
      · next he => exact he ▸ log_runSteps ..
      · next he => exact he ▸ List.prefix_rfl
    obtain ⟨turn, next, hgoes, hnext⟩ := step_goes hready count choice counts hfirst
    simp only [runSteps, hgoes.step] at hpasses ⊢
    obtain ⟨turns, last, hrest, hfollow, htold⟩ := ih hnext (turn.counted counts) hpasses
    refine ⟨turn :: turns, last, hrest, .cons hgoes.follows hfollow, ?_⟩
    rw [htold, hgoes.told, List.flatMap_cons, List.append_assoc]

end Steps

theorem toNat_ofNat_countP {turns : List Turn} (h : turns.length < UInt64.size)
    (like : Turn → Bool) : (UInt64.ofNat (turns.countP like)).toNat = turns.countP like :=
  UInt64.toNat_ofNat_of_lt' (Nat.lt_of_le_of_lt List.countP_le_length h)

def starting : Node ScriptedStore where
  settings := { minQueued := 1 }
  members := { role := .leader }
  desk := { store := .steady fun _ => 5 }

def beforehand : Bytes := Text.encode "gtjb?v?0\nupjb?v?12\nhttps://x?1\n"

def visited : Node ScriptedStore :=
  let node := (serve .nobody (starting.settings.scriptedSite 1000) Node.worker beforehand
    ⟨starting, ()⟩).2.node
  { node with desk := { node.desk with
      store := { node.desk.store with turns := fun _ => { now := 5 } } } }

/-- A worker whose name is beyond the limit on headers gets nowhere. -/
theorem step_tooLong [ScanOrder] (link : Link ν) (conn : Connection) {client : String}
    {line : Line ν} (hready : line.Ready) (hclient : ({} : Delimiters).entryChar ∉ client.toList)
    (hlong : Frame.maxHeaderLength < (Text.encode client).length) (count : Nat) (choice : Choice)
    (counts : Counts) :
    (step (overLine link conn client) count choice counts line).1 =
      (.error (.turnedDown .clientError Frame.HeaderError.tooLong.message), counts) := by
  let r := Call.takeJob.request {} client
  have hcode : ({} : Delimiters).entryChar ∉ Frame.RequestKind.takeJob.code.toList := by decide
  have hentry : ({} : Delimiters).entry ∉ Text.encode (r.header.encode {}) :=
    Frame.RequestHeader.entry_not_mem Delimiters.framing_default hcode hclient
  have hsub : (Text.encode client).Sublist (Text.encode (r.header.encode {})) := by
    refine Text.encode_sublist ?_
    rw [Frame.toList_encode_header]
    exact ((List.sublist_append_left ..).cons _).trans (List.sublist_append_right ..)
  have hserved := Node.serve_tooLong link
    (line.there.node.settings.scriptedSite (line.clock 0)) conn hready.sound.delimiters (r := r)
    rfl hentry (Nat.lt_of_lt_of_le hlong hsub.length_le)
  have hanswer := answer_of_serve link conn client .takeJob hready.read hserved
    (by decide +kernel)
  have hdown : Call.takeJob.result {} (.ok (.clientError Frame.HeaderError.tooLong.message)) =
      .error (.turnedDown .clientError Frame.HeaderError.tooLong.message) := by decide +kernel
  rw [hdown] at hanswer
  simp only [step, hanswer]

def longName (n : Nat) : String := String.ofList (List.replicate n 'w')

theorem not_mem_longName {n : Nat} {c : Char} (h : c ≠ 'w') : c ∉ (longName n).toList := by
  rw [longName, String.toList_ofList]
  exact fun hmem => h (List.eq_of_mem_replicate hmem)

theorem length_longName (n : Nat) : (Text.encode (longName n)).length = n := by
  have hone : 'w'.utf8Size = 1 := by decide
  rw [longName, Text.encode, String.toList_ofList]
  simp [hone]

end CrawlCluster.Worker
