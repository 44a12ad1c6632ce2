import CrawlCluster.Proofs.Network.Team

set_option autoImplicit false

namespace CrawlCluster

theorem Fault.next_of_ne {kind : StoreCall.Kind} {faults : List Fault}
    (h : ∀ fault ∈ faults, fault.kind ≠ kind) : Fault.next kind faults = (none, faults) := by
  induction faults with
  | nil => rfl
  | cons fault faults ih =>
    obtain ⟨hfault, hrest⟩ := List.forall_mem_cons.1 h
    rw [Fault.next, if_pos hfault, ih hrest]

theorem Coordinator.connect_ok [ScanOrder] {desk : Desk}
    (h : ∀ fault ∈ desk.store.faults, fault.kind ≠ .connect) (settings : Settings) (now : Int64)
    (db : Peer) : ((connect db).run (settings.site now) desk).1 = .ok () := by
  have hperform : FaultyStore.perform now (.connect db) desk.store = (.ok (), desk.store) := by
    rw [FaultyStore.perform, StoreCall.kind, Fault.next_of_ne h]
    rfl
  have hask : (desk.ask (settings.site now) (.connect db)).1 = .ok () := by
    simp only [State.ask, RetryPolicy.run, Settings.site, FaultyStore.backend]
    rw [RetryPolicy.runFrom, hperform]
  show (Program.run _ (Program.orFail .store (desk.ask (settings.site now) (.connect db)).1) _).1 =
    .ok ()
  rw [hask]
  rfl

namespace Node

open Roster (Joined)

variable {σ ν : Type} {link : Link ν} {site : Coordinator.Site σ} {p : Parameters}
variable {bound : Net.Endpoint} {node : Node σ} {net after : ν} {joined : Joined}

theorem start_alone (h : p.assumeLeader = true ∨ p.seeds = []) : ∃ started,
    node.start link site p bound net = (none, started, net) ∧
      started.place =
        { node.place with role := .leader, me := Roster.initialIdentity p.advertise bound } := by
  have halone : (p.assumeLeader || p.seeds.isEmpty) = true := by
    rcases h with h | h <;> simp [h]
  rw [start, halone]
  exact ⟨_, rfl, rfl⟩

theorem start_joined (hleads : p.assumeLeader = false) (hseeds : p.seeds ≠ [])
    (hjoin : Roster.joinFirst link node.delimiters (Roster.initialIdentity p.advertise bound)
      (p.seeds.filter fun seed =>
        !Roster.isSelf seed (Roster.initialIdentity p.advertise bound) bound) net =
      (some joined, after)) : ∃ started,
    node.start link site p bound net = (some joined, started, after) ∧
      started.place =
        { node.place with role := .follower joined.leader, me := joined.you } := by
  have halone : (p.assumeLeader || p.seeds.isEmpty) = false := by
    simp [hleads, hseeds]
  rw [delimiters] at hjoin
  rw [start, halone]
  simp only [Bool.false_eq_true, if_false, delimiters, hjoin]
  refine ⟨_, rfl, ?_⟩
  rw [follow, Roster.follow_eq]
  rfl

end Node

namespace Network

open Roster (Joined)
open World

def World.enter (host : Host) (w : World) : World := { w with hosts := w.hosts ++ [host] }

theorem standings_enter (host : Host) (w : World) :
    (w.enter host).standings = w.standings ++ [host.standing] := List.map_append ..

theorem Host.standing_follow (joined : Joined) (ear : Ear) (host : Host) :
    (host.follow joined ear).standing =
      { host.standing with
        place := { host.node.place with role := .follower joined.leader, me := joined.you }
        ear := some (ear.socket, ear.leader)
        search := none } := by
  rw [follow, standing_receive, Node.follow, Roster.follow_eq]
  rfl

namespace Launch

variable {l : Launch} {w : World}

def follower (leader : Peer) (socket : Roster.Socket) (name : String) (l : Launch) : Standing :=
  { l.newcomer with
    place := { l.newcomer.place with role := .follower leader, me := l.identity }
    ear := some (socket, name)
    search := none }

def leader (l : Launch) : Standing :=
  { l.newcomer with place := { l.newcomer.place with role := .leader, me := l.identity } }

section

variable [ScanOrder]

def entered (host : Host) : Option Joined × Node FaultyStore × World → World
  | (some joined, node, w) => (w.putHost ({ host with node }.follow joined w.latest)).settle
  | (none, node, w) => (w.save { host with node }).settle

theorem start_eq (hl : l.Usual) (hfree : w.isTaken l.parameters.bind = false)
    (hfresh : ∀ host ∈ w.hosts, host.name ≠ l.name) :
    ∃ host : Host, host.standing = l.newcomer ∧
      l.start w = (.ok (), entered host (host.node.start (deep (w.enter host).hosts.length)
        (host.site w.now) l.parameters l.parameters.bind (w.enter host))) := by
  let desk : Coordinator.Desk := { store := { store := w.store l.store, faults := l.faults } }
  let node : Node FaultyStore := { settings := l.parameters.jobs, desk }
  have hconnect : (node.run (l.parameters.jobs.site w.now)
      (Coordinator.connect l.parameters.db)).1 = .ok () :=
    @Coordinator.connect_ok _ desk hl.stocked ..
  have hothers : w.hosts.filter (fun h => h.name != l.name) = w.hosts := by
    rw [List.filter_eq_self]
    exact fun host hhost => bne_iff_ne.2 (hfresh host hhost)
  let joining := (node.run (l.parameters.jobs.site w.now)
    (Coordinator.connect l.parameters.db)).2.seek
  have hrun : node.run (l.parameters.jobs.site w.now) (Coordinator.connect l.parameters.db) =
      (.ok (), (node.run (l.parameters.jobs.site w.now)
        (Coordinator.connect l.parameters.db)).2) := Prod.ext hconnect rfl
  let host : Host := { name := l.name, bound := l.parameters.bind, parameters := l.parameters
                       node := joining, store := l.store }
  refine ⟨host, rfl, ?_⟩
  rw [start, World.start, hfree]
  simp only [Bool.false_eq_true, if_false, hothers]
  simp only [Host.site]
  rw [hrun]
  dsimp only
  split
  · next hstart => exact Prod.ext rfl (congrArg (entered host) hstart.symm)
  · next hstart => exact Prod.ext rfl (congrArg (entered host) hstart.symm)

end

theorem Usual.isSelf_iff {p : Peer} (hl : l.Usual) :
    Roster.isSelf p l.identity l.parameters.bind = true ↔ p = l.identity := by
  rw [Roster.isSelf, Bool.or_eq_true, beq_iff_eq, Bool.and_eq_true, beq_iff_eq, beq_iff_eq,
    or_iff_left_iff_imp, hl.identified]
  rintro ⟨hport, haddress⟩
  rw [Net.Endpoint.peer, ← hport, ← haddress]

theorem Usual.team (hl : l.Usual) : Team l.leader [] where
  named := List.nodup_singleton _
  sound := by
    intro s hs
    rw [List.mem_singleton.1 hs]
    exact ⟨rfl, hl.specified, hl.delimiters, hl.identified, rfl⟩
  leads := rfl
  deaf := rfl
  listed := .nil

end Launch

variable {l : Launch} {leader : Standing} {followers : List Standing}

theorem Team.Meets.extend (h : Team.Meets leader followers l) {p : Peer}
    (hp : reaches p leader.bound = true) (socket : Roster.Socket) :
    Team (leader.listing l.identity socket) (followers ++ [l.follower p socket leader.name]) where
  named := by
    have hnamed := h.named
    rw [List.cons_append, List.map_cons, List.map_append] at hnamed
    rw [List.map_cons, List.map_append]
    exact hnamed
  sound := by
    intro s hs
    rw [← List.cons_append, List.mem_append, List.mem_cons, List.mem_singleton] at hs
    rcases hs with (rfl | hs) | rfl
    · have hleader := h.team.sound _ List.mem_cons_self
      exact ⟨hleader.running, hleader.specified, hleader.delimiters, hleader.addressed,
        hleader.idle⟩
    · exact h.team.sound s (List.mem_cons_of_mem leader hs)
    · exact ⟨rfl, h.usual.specified, h.usual.delimiters, h.usual.identified, rfl⟩
  leads := h.team.leads
  deaf := h.team.deaf
  listed := by
    have hearlier := h.team.listed.imp fun a s ⟨hpeer, hfollows⟩ =>
      show a.peer = s.place.me ∧ (leader.listing l.identity socket).Follows s a.socket from
        ⟨hpeer, hfollows.role, hfollows.ear, hfollows.active⟩
    exact List.rel_append hearlier (.cons ⟨rfl, ⟨p, rfl, hp⟩, rfl, rfl⟩ .nil)

def Launch.known (l : Launch) : String × Net.Endpoint × Peer :=
  (l.name, l.parameters.bind, l.identity)

def Standing.known (s : Standing) : String × Net.Endpoint × Peer := (s.name, s.bound, s.place.me)

/-- The nodes that were started make up a team, in the order they were started. -/
structure Formed (launches : List Launch) (leader : Standing) (followers : List Standing)
    (w : World) : Prop where
  standings : w.standings = leader :: followers
  fakes : w.fakes = []
  team : Team leader followers
  known : (leader :: followers).map Standing.known = launches.map Launch.known

variable {w : World}

theorem Formed.settle [ScanOrder] {launches : List Launch}
    (h : Formed launches leader followers w) :
    Formed launches leader followers w.settle := by
  have hcalm := h.team.calm
  rw [← h.standings] at hcalm
  have halike := hcalm.settle
  exact ⟨halike.standings.trans h.standings, halike.fakes.trans h.fakes, h.team, h.known⟩

theorem start_first [ScanOrder] (hl : l.Usual)
    (hleads : l.parameters.assumeLeader = true ∨ l.parameters.seeds = []) (hhosts : w.hosts = [])
    (hfakes : w.fakes = []) :
    (l.start w).1 = .ok () ∧ Formed [l] l.leader [] (l.start w).2 := by
  have hfree : w.isTaken l.parameters.bind = false := by
    rw [isTaken, hhosts, hfakes]
    rfl
  obtain ⟨host, hstanding, hstart⟩ := l.start_eq hl hfree (by simp [hhosts])
  obtain ⟨started, hnode, hplace⟩ := Node.start_alone hleads
  rw [hstart, hnode]
  have hleader : ({ host with node := started } : Host).standing = l.leader := by
    rw [Launch.leader, ← hstanding]
    exact congrArg (fun place => { host.standing with place }) hplace
  have hname : host.name = l.name := congrArg Standing.name hstanding
  refine ⟨rfl, Formed.settle ⟨?_, ?_, hl.team, rfl⟩⟩
  · rw [standings_save, standings_putHost, standings_enter, standings, hhosts, hstanding, hleader]
    simp [hname, Launch.newcomer]
  · rw [fakes_save]
    exact hfakes

theorem Formed.isTaken {launches : List Launch} (hformed : Formed launches leader followers w)
    (h : Team.Meets leader followers l) : w.isTaken l.parameters.bind = false := by
  rw [World.isTaken, hformed.fakes, List.any_nil, Bool.or_false, List.any_eq_false]
  intro host hhost htaken
  have hs : host.standing ∈ leader :: followers := hformed.standings ▸ standing_mem hhost
  have hsound := h.team.sound _ hs
  have hapart : host.bound.peer ≠ l.parameters.bind.peer := by
    rw [← h.usual.identified]
    exact hsound.addressed ▸ (h.fresh _ hs).2
  have hfree := collide_eq_false hsound.specified h.usual.specified hapart
  exact absurd (Bool.and_eq_true_iff.1 htaken).2 (Bool.eq_false_iff.1 hfree)

/-- A newcomer does not take a seed for itself that leads to somebody of the team. -/
theorem Team.Meets.asks (h : Team.Meets leader followers l) {seed : Peer}
    (hseed : seed ∈ l.parameters.seeds) {s : Standing} (hs : s ∈ leader :: followers)
    (hreach : reaches seed s.bound = true) :
    seed ∈ l.parameters.seeds.filter fun seed =>
      !Roster.isSelf seed l.identity l.parameters.bind := by
  refine List.mem_filter.2 ⟨hseed, ?_⟩
  rw [Bool.not_eq_true', Bool.eq_false_iff, Ne, h.usual.isSelf_iff]
  exact h.ne_identity hs hreach

/-- Whoever finds somebody of the team ends up as its youngest member. -/
theorem start_next [ScanOrder] {launches : List Launch}
    (hformed : Formed launches leader followers w)
    (h : Team.Meets leader followers l) (hjoins : l.parameters.assumeLeader = false)
    (hknows : ∃ seed ∈ l.parameters.seeds, ∃ s ∈ leader :: followers,
      reaches seed s.bound = true) :
    (l.start w).1 = .ok () ∧ ∃ leader followers,
      Formed (launches ++ [l]) leader followers (l.start w).2 := by
  have hfresh (host : Host) (hhost : host ∈ w.hosts) : host.name ≠ l.name :=
    (h.fresh _ (hformed.standings ▸ standing_mem hhost)).1
  obtain ⟨host, hstanding, hstart⟩ := l.start_eq h.usual (hformed.isTaken h) hfresh
  have hawaits : Awaits leader followers l (w.enter host) :=
    ⟨by rw [standings_enter, hformed.standings, hstanding], hformed.fakes⟩
  obtain ⟨seed, hseed, s, hs, hreach⟩ := hknows
  obtain ⟨joined, after, hjoin, htaken⟩ := h.joinFirst (w.enter host).hosts.length hawaits
    ⟨seed, h.asks hseed hs hreach, s, hs, (h.team.sound s hs).isAt_iff.2 hreach⟩
  have hdelimiters : host.node.delimiters = {} :=
    (congrArg (·.place.delimiters) hstanding).trans h.usual.delimiters
  rw [← hdelimiters] at hjoin
  obtain ⟨started, hnode, hplace⟩ := Node.start_joined hjoins (List.ne_nil_of_mem hseed) hjoin
  have hfollower : (({ host with node := started } : Host).follow joined after.latest).standing =
      l.follower joined.leader after.latest.socket leader.name := by
    rw [Host.standing_follow, Launch.follower, ← hstanding, ← htaken.you, ← htaken.heard]
    simp only [Host.standing, hplace]
  rw [hstart, hnode]
  refine ⟨rfl, _, _, Formed.settle ⟨?_, ?_, h.extend htaken.found after.latest.socket, ?_⟩⟩
  · -- the leader has listed the newcomer before that knows whom it follows
    rw [standings_putHost, htaken.standings, hfollower]
    have hname := congrArg Standing.name hfollower
    simp only [Host.standing] at hname
    rw [hname]
    exact h.map_put_newcomer ..
  · exact htaken.fakes
  · have hknown := hformed.known
    rw [List.map_cons] at hknown
    rw [List.map_append, ← hknown, List.map_cons, List.map_append]
    rfl

/-- Nodes to be started one after the other. The first leads; each of the others is to join, and one
of its seeds leads to a node that was started before. -/
inductive Orderly : List Launch → Prop where
  | first {l : Launch} (usual : l.Usual)
    (leads : l.parameters.assumeLeader = true ∨ l.parameters.seeds = []) : Orderly [l]
  | next {earlier : List Launch} {l : Launch} (before : Orderly earlier) (usual : l.Usual)
    (apart : ∀ e ∈ earlier, e.name ≠ l.name ∧ e.identity ≠ l.identity)
    (joins : l.parameters.assumeLeader = false)
    (knows : ∃ seed ∈ l.parameters.seeds, ∃ e ∈ earlier, reaches seed e.parameters.bind = true) :
    Orderly (earlier ++ [l])

theorem Orderly.of_append {launches rest : List Launch} (h : Orderly (launches ++ rest))
    (hsome : launches ≠ []) : Orderly launches := by
  induction rest using List.reverseRecOn with
  | nil => rwa [List.append_nil] at h
  | append_singleton rest l ih =>
    rw [← List.append_assoc] at h
    generalize hall : launches ++ rest ++ [l] = all at h
    cases h with
    | first =>
      have hlength := congrArg List.length hall
      simp only [List.length_append, List.length_singleton] at hlength
      have hpos := List.length_pos_iff.2 hsome
      omega
    | next before =>
      obtain ⟨rfl, -⟩ := List.append_inj' hall rfl
      exact ih before

/-- Start nodes one after the other: what came of each start, and the network at the end. -/
def World.startEach [ScanOrder] : List Launch → World → List (Except StartError Unit) × World
  | [], w => ([], w)
  | l :: rest, w =>
    let (result, w) := l.start w
    let (results, w) := startEach rest w
    (result :: results, w)

theorem startEach_concat [ScanOrder] (launches : List Launch) (l : Launch) (w : World) :
    w.startEach (launches ++ [l]) =
      ((w.startEach launches).1 ++ [(l.start (w.startEach launches).2).1],
        (l.start (w.startEach launches).2).2) := by
  induction launches generalizing w with
  | nil => rfl
  | cons first launches ih =>
    simp only [List.cons_append, startEach, ih]

namespace Formed

variable {launches : List Launch}

theorem launched (h : Formed launches leader followers w) {s : Standing}
    (hs : s ∈ leader :: followers) :
    ∃ e ∈ launches, e.name = s.name ∧ e.parameters.bind = s.bound ∧ e.identity = s.place.me := by
  have hmem : s.known ∈ (leader :: followers).map Standing.known := List.mem_map_of_mem hs
  rw [h.known] at hmem
  obtain ⟨e, he, hknown⟩ := List.mem_map.1 hmem
  simp only [Launch.known, Standing.known, Prod.mk.injEq] at hknown
  exact ⟨e, he, hknown⟩

theorem stands (h : Formed launches leader followers w) {e : Launch} (he : e ∈ launches) :
    ∃ s ∈ leader :: followers, s.bound = e.parameters.bind := by
  have hmem : e.known ∈ launches.map Launch.known := List.mem_map_of_mem he
  rw [← h.known] at hmem
  obtain ⟨s, hs, hknown⟩ := List.mem_map.1 hmem
  simp only [Launch.known, Standing.known, Prod.mk.injEq] at hknown
  exact ⟨s, hs, hknown.2.1⟩

theorem meets (h : Formed launches leader followers w) (hl : l.Usual)
    (hapart : ∀ e ∈ launches, e.name ≠ l.name ∧ e.identity ≠ l.identity)
    (hcount : launches.length < 2 ^ 54) : Team.Meets leader followers l where
  team := h.team
  usual := hl
  fresh := by
    intro s hs
    obtain ⟨e, he, hname, -, hme⟩ := h.launched hs
    rw [← hname, ← hme]
    exact hapart e he
  countable := by
    have hlength := congrArg List.length h.known
    rw [List.length_map, List.length_map] at hlength
    rwa [hlength]

end Formed

theorem Orderly.formed [ScanOrder] {launches : List Launch} (h : Orderly launches)
    (hcount : launches.length < 2 ^ 54) (hhosts : w.hosts = []) (hfakes : w.fakes = []) :
    (w.startEach launches).1 = launches.map (fun _ => .ok ()) ∧
      ∃ leader followers, Formed launches leader followers (w.startEach launches).2 := by
  induction h with
  | first usual leads =>
    obtain ⟨hok, hformed⟩ := start_first usual leads hhosts hfakes
    exact ⟨congrArg (fun result => [result]) hok, _, _, hformed⟩
  | @next earlier l before usual apart joins knows ih =>
    rw [List.length_append, List.length_singleton] at hcount
    obtain ⟨hresults, leader, followers, hformed⟩ := ih (Nat.lt_of_succ_lt hcount)
    obtain ⟨seed, hseed, e, he, hreach⟩ := knows
    obtain ⟨s, hs, hbound⟩ := hformed.stands he
    obtain ⟨hok, hnext⟩ := start_next hformed
      (hformed.meets usual apart (Nat.lt_of_succ_lt hcount)) joins
      ⟨seed, hseed, s, hs, hbound ▸ hreach⟩
    rw [startEach_concat, List.map_append]
    exact ⟨congrArg₂ (· ++ ·) hresults (congrArg (fun result => [result]) hok), hnext⟩

/-- However many nodes have been started in an orderly way, in a network with nobody else in it:
each start succeeded, the first node leads, each of the others follows it, and it lists them in the
order they were started. A frame counts its bytes in 64 bits, so there is an end to the members that
it can name. -/
theorem started_one_leader [ScanOrder] {first : Launch} {later rest : List Launch}
    (h : Orderly (first :: later ++ rest)) (hcount : (first :: later).length < 2 ^ 54)
    (hhosts : w.hosts = []) (hfakes : w.fakes = []) :
    ∃ leader followers after,
      w.startEach (first :: later) = ((first :: later).map fun _ => .ok (), after) ∧
      after.hosts = leader :: followers ∧
      (leader :: followers).map (fun host => (host.name, host.bound, host.node.members.me)) =
        (first :: later).map (fun l => (l.name, l.parameters.bind, l.identity)) ∧
      (∀ host ∈ leader :: followers, host.isRunning = true) ∧
      leader.node.members.role = .leader ∧
      (∀ host ∈ followers, ∃ p, host.node.members.role = .follower p ∧
        after.at? p = some leader) ∧
      leader.node.members.followers = later.map (·.identity) := by
  have horderly : Orderly (first :: later) := h.of_append (List.cons_ne_nil _ _)
  obtain ⟨hresults, chief, others, hformed⟩ := horderly.formed hcount hhosts hfakes
  obtain ⟨leader, followers, hafter, rfl, rfl⟩ := List.map_eq_cons_iff.1 hformed.standings
  have hteam := hformed.team
  have hsound (host : Host) (hhost : host ∈ leader :: followers) : host.standing.Sound :=
    hteam.sound _ (List.mem_map_of_mem (f := Host.standing) hhost)
  have hknown : (leader :: followers).map (fun host =>
      (host.name, host.bound, host.node.members.me)) =
        (first :: later).map fun l => (l.name, l.parameters.bind, l.identity) := by
    have hknown := hformed.known
    rwa [← List.map_cons, List.map_map] at hknown
  refine ⟨leader, followers, _, Prod.ext hresults rfl, hafter, hknown, fun host hhost => ?_,
    hteam.leads, fun host hhost => ?_, ?_⟩
  · exact beq_iff_eq.2 (hsound host hhost).running
  · obtain ⟨socket, hfollows⟩ := hteam.follows (List.mem_map_of_mem (f := Host.standing) hhost)
    obtain ⟨p, hrole, hreach⟩ := hfollows.role
    refine ⟨p, hrole, ?_⟩
    rw [at?, hafter, List.find?_cons_of_pos]
    exact (hsound leader List.mem_cons_self).isAt_iff.2 hreach
  · have hlater := congrArg (fun known => known.tail.map (·.2.2)) hknown
    simp only [List.map_cons, List.tail_cons, List.map_map] at hlater
    have hpeers := hteam.peers
    rw [List.map_map] at hpeers
    exact hpeers.trans hlater

def Launch.atLoopback (name : String) (port : UInt16) (seeds : List UInt16) : Launch :=
  { name
    store := "jobs"
    parameters :=
      { bind := { ip := Net.Ip.loopback, port }
        seeds := seeds.map fun port => { address := "127.0.0.1", port } } }

theorem Launch.usual_atLoopback (name : String) (port : UInt16) (seeds : List UInt16) :
    (Launch.atLoopback name port seeds).Usual where
  delimiters := rfl
  specified := rfl
  identified := rfl
  stocked _ hfault := absurd hfault List.not_mem_nil

/-- The second asks at a dead address and knows itself; the third knows the leader only through the
second. -/
theorem started_one_leader_redirected :
    let first := Launch.atLoopback "a" 7001 []
    let second := Launch.atLoopback "b" 7002 [7009, 7002, 7001]
    let third := Launch.atLoopback "c" 7003 [7003, 7002]
    Orderly [first, second, third] ∧
      ∃ leader followers after,
        ({} : World).startEach [first, second, third] = ([.ok (), .ok (), .ok ()], after) ∧
        after.hosts = leader :: followers ∧ followers.length = 2 ∧
        leader.node.members.role = .leader ∧
        leader.node.members.followers = [second.identity, third.identity] := by
  intro first second third
  have horderly : Orderly [first, second, third] := by
    have hfirst : Orderly [first] := .first (Launch.usual_atLoopback ..) (.inr rfl)
    have hsecond : Orderly ([first] ++ [second]) :=
      .next hfirst (Launch.usual_atLoopback ..) (by decide) rfl
        ⟨{ address := "127.0.0.1", port := 7001 }, by decide, first, List.mem_singleton_self first,
          by decide⟩
    exact .next hsecond (Launch.usual_atLoopback ..) (by decide) rfl
      ⟨{ address := "127.0.0.1", port := 7002 }, by decide, second, .tail first (.head _),
        by decide⟩
  obtain ⟨leader, followers, after, hstarted, hhosts, hknown, -, hrole, -, hpeers⟩ :=
    @started_one_leader {} _ first [second, third] [] horderly (by decide) rfl rfl
  have hlength : followers.length = 2 := by simpa using congrArg List.length hknown
  exact ⟨horderly, leader, followers, after, hstarted, hhosts, hlength, hrole, hpeers⟩

end Network
end CrawlCluster
