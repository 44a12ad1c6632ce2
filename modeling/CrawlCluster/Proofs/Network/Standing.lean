import CrawlCluster.Network.Actions
import CrawlCluster.Proofs.Roster.Replay
import Mathlib.Data.List.Nodup

/-!
Where the hosts of a network stand: who leads, who follows on which connection, and who is there.
Main statement: `Calm.settle`, that a network in which every leader reaches its followers and nobody
has lost its leader stays as it stands while it settles, whatever news and work goes round.
-/

set_option autoImplicit false

namespace CrawlCluster

structure Node.Place where
  delimiters : Delimiters
  role : Roster.Role
  me : Peer
  active : List Roster.ActivePeer
  deriving DecidableEq, Repr

namespace Node

variable {σ : Type}

def place (node : Node σ) : Place :=
  { delimiters := node.delimiters
    role := node.members.role
    me := node.members.me
    active := node.members.active }

theorem place_hear (node : Node σ) (received : Except Frame.HeaderError Frame.Request) :
    (node.hear received).place = node.place := by
  cases received with
  | error => rfl
  | ok req =>
    rw [hear]
    split
    · rfl
    · simp only [applyHeartbeat, place, Roster.applyAll_eq]
      rfl

theorem place_run {α : Type} (site : Coordinator.Site σ) (program : Coordinator.Program α)
    (node : Node σ) : (node.run site program).2.place = node.place := rfl

theorem place_foldl_hear (received : List (Except Frame.HeaderError Frame.Request))
    (node : Node σ) : (received.foldl hear node).place = node.place := by
  induction received generalizing node with
  | nil => rfl
  | cons first rest ih => exact (ih (node.hear first)).trans (node.place_hear first)

end Node

namespace Network

/-- A host but for the work it does. -/
structure Standing where
  name : String
  bound : Net.Endpoint
  condition : Condition
  place : Node.Place
  /-- The connection it hears its leader on, and the host on the other side. -/
  ear : Option (Roster.Socket × String)
  search : Option Roster.Search
  deriving DecidableEq, Repr

namespace Host

def standing (host : Host) : Standing :=
  { name := host.name
    bound := host.bound
    condition := host.condition
    place := host.node.place
    ear := host.ear.map fun ear => (ear.socket, ear.leader)
    search := host.search }

theorem standing_node (host : Host) {node : Node FaultyStore} (h : node.place = host.node.place) :
    { host with node }.standing = host.standing := by
  simp only [standing, h]

theorem standing_receive (bytes : Bytes) (host : Host) :
    (host.receive bytes).standing = host.standing := by
  rw [receive]
  cases hear : host.ear with
  | none => rfl
  | some ear => simp only [standing, Node.place_foldl_hear, hear, Option.map_some]

end Host

namespace World

variable {w after later : World} {host : Host}

def standings (w : World) : List Standing := w.hosts.map Host.standing

theorem standings_putHost (host : Host) (w : World) : (w.putHost host).standings =
    w.standings.map fun s => if s.name = host.name then host.standing else s := by
  rw [standings, standings, putHost, List.map_map, List.map_map]
  refine List.map_congr_left fun h _ => ?_
  by_cases hname : h.name = host.name
  · simp [hname, Host.standing]
  · simp [hname, Host.standing]

structure Alike (w after : World) : Prop where
  standings : after.standings = w.standings
  fakes : after.fakes = w.fakes

theorem Alike.refl (w : World) : w.Alike w := ⟨rfl, rfl⟩

theorem Alike.trans (h : w.Alike after) (hlater : after.Alike later) : w.Alike later :=
  ⟨hlater.standings.trans h.standings, hlater.fakes.trans h.fakes⟩

/-- Every leader reaches its followers, every follower hears its leader, and nobody searches. -/
structure Calm (standings : List Standing) : Prop where
  named : (standings.map (·.name)).Nodup
  idle : ∀ s ∈ standings, s.search = none
  reached : ∀ s ∈ standings, ∀ a ∈ s.place.active,
    ∃ t ∈ standings, t.condition = .running ∧ t.ear.map (·.1) = some a.socket
  heard : ∀ s ∈ standings, ∀ ear, s.ear = some ear →
    ∃ t ∈ standings, t.condition = .running ∧ t.name = ear.2

theorem standing_mem (hhost : host ∈ w.hosts) : host.standing ∈ w.standings :=
  List.mem_map_of_mem hhost

section Putting

variable (hnamed : (w.standings.map (·.name)).Nodup)
include hnamed

theorem alike_putHost (hhost : host.standing ∈ w.standings) : w.Alike (w.putHost host) := by
  have hsame : ∀ s ∈ w.standings, (if s.name = host.name then host.standing else s) = s := by
    intro s hs
    split
    · next hname => exact List.inj_on_of_nodup_map hnamed hhost hs hname.symm
    · rfl
  refine ⟨?_, rfl⟩
  rw [standings_putHost, List.map_congr_left hsame, List.map_id']

theorem alike_save (hhost : host.standing ∈ w.standings) : w.Alike (w.save host) := by
  have hput := alike_putHost hnamed hhost
  rw [save]
  split
  · exact ⟨hput.standings, hput.fakes⟩
  · exact hput

theorem deliver_alike (d : Delimiters) (req : Frame.Request) (tells : Bool)
    {socket : Roster.Socket}
    (hears : ∃ t ∈ w.standings, t.condition = .running ∧ t.ear.map (·.1) = some socket) :
    (deliver d req tells socket w).1 = true ∧ w.Alike (deliver d req tells socket w).2 := by
  rw [deliver]
  split
  · next host hfound =>
    refine ⟨rfl, alike_putHost hnamed ?_⟩
    rw [Host.standing_receive]
    exact standing_mem (List.mem_of_find?_eq_some hfound)
  · next hnone =>
    obtain ⟨t, ht, hrunning, hear⟩ := hears
    obtain ⟨host, hhost, rfl⟩ := List.mem_map.1 ht
    have hhears : (host.isRunning && (host.ear.map (·.socket)) == some socket) = true := by
      simp only [Host.standing, Option.map_map] at hrunning hear
      rw [Host.isRunning, hrunning, Bool.and_eq_true, beq_iff_eq, beq_iff_eq]
      exact ⟨rfl, hear⟩
    exact absurd hhears (List.find?_eq_none.1 hnone host hhost)

end Putting

theorem deliver_foldl_alike (d : Delimiters) (req : Frame.Request) (tells : Bool)
    (hcalm : Calm w.standings) {sockets lost : List Roster.Socket}
    (hears : ∀ socket ∈ sockets,
      ∃ t ∈ w.standings, t.condition = .running ∧ t.ear.map (·.1) = some socket)
    (hafter : w.Alike after) :
    ∃ later, w.Alike later ∧ sockets.foldl (fun (lost, w) socket =>
      let (held, w) := deliver d req tells socket w
      (if held then lost else lost ++ [socket], w)) (lost, after) = (lost, later) := by
  induction sockets generalizing after with
  | nil => exact ⟨after, hafter, rfl⟩
  | cons socket sockets ih =>
    obtain ⟨hsocket, hrest⟩ := List.forall_mem_cons.1 hears
    rw [← hafter.standings] at hsocket
    have hnamed := hcalm.named
    rw [← hafter.standings] at hnamed
    obtain ⟨hheld, hnext⟩ := deliver_alike hnamed d req tells hsocket
    obtain ⟨later, hlater, hfold⟩ := ih hrest (hafter.trans hnext)
    refine ⟨later, hlater, ?_⟩
    simp only [List.foldl_cons, hheld, if_true]
    exact hfold

theorem beat_alike (hcalm : Calm w.standings) (hhost : host ∈ w.hosts) :
    w.Alike (beat host w) := by
  have hears : ∀ socket ∈ host.node.members.active.map (·.socket),
      ∃ t ∈ w.standings, t.condition = .running ∧ t.ear.map (·.1) = some socket := by
    intro socket hsocket
    obtain ⟨a, ha, rfl⟩ := List.mem_map.1 hsocket
    exact hcalm.reached _ (standing_mem hhost) a ha
  let node := host.node.heartbeat.2
  obtain ⟨later, hlater, hfold⟩ := deliver_foldl_alike node.delimiters host.node.heartbeat.1
    (!host.node.members.pending.isEmpty) hcalm hears (.refl w)
  have hbeat : beat host w = later.putHost { host with node } :=
    congrArg (fun result : List Roster.Socket × World => result.2.putHost
      { host with
        node := { node with
          members := result.1.foldl (fun members socket => members.removeActive socket)
            node.members } }) hfold
  rw [hbeat]
  have hput := @alike_putHost later { host with node }
  rw [hlater.standings] at hput
  have hstanding : { host with node }.standing = host.standing := rfl
  rw [hstanding] at hput
  exact hlater.trans (hput hcalm.named (standing_mem hhost))

theorem sweep_alike [ScanOrder] (hcalm : Calm w.standings) (hhost : host ∈ w.hosts) :
    w.Alike (sweep host w) := by
  let host' := w.load host
  have hsweep : sweep host w = w.save
    { host' with node := (host'.node.run (host'.site w.now)
        (Coordinator.sweep host'.node.settings w.now)).2 } := rfl
  rw [hsweep]
  refine alike_save hcalm.named ?_
  have hload : host'.standing = host.standing := rfl
  rw [Host.standing_node host' (Node.place_run ..), hload]
  exact standing_mem hhost

theorem noticeLoss_eq (hcalm : Calm w.standings) (hhost : host ∈ w.hosts) :
    noticeLoss host w = w := by
  rw [noticeLoss]
  split
  · next ear hear =>
    obtain ⟨t, ht, hrunning, hname⟩ := hcalm.heard _ (standing_mem hhost) (ear.socket, ear.leader)
      (by rw [Host.standing, hear, Option.map_some])
    obtain ⟨leader, hleader, rfl⟩ := List.mem_map.1 ht
    have hholds : w.holds ear = true := by
      rw [holds, Bool.or_eq_true, List.any_eq_true]
      refine .inl ⟨leader, hleader, ?_⟩
      rw [Bool.and_eq_true, beq_iff_eq, Host.isRunning, beq_iff_eq]
      exact ⟨hname, hrunning⟩
    rw [if_pos hholds]
  · rfl

theorem alike_eachHost (p : Host → Bool) (act : Host → World → World)
    (hact : ∀ now host, w.Alike now → host ∈ now.hosts → p host = true →
      now.Alike (act host now)) : w.Alike (eachHost p act w) := by
  rw [eachHost]
  refine List.foldlRecOn (motive := w.Alike) _ _ (.refl w) ?_
  intro now hnow name _
  split
  · next host hfound =>
    split
    · next hp =>
      rw [Bool.and_eq_true] at hp
      exact hnow.trans (hact now host hnow (List.mem_of_find?_eq_some hfound) hp.2)
    · exact hnow
  · exact hnow

theorem Calm.round [ScanOrder] (hcalm : Calm w.standings) : w.Alike (round w) := by
  have hnow {now : World} (h : w.Alike now) : Calm now.standings := by
    rw [h.standings]
    exact hcalm
  have hsearch {now : World} (h : w.Alike now) {host : Host} (hhost : host ∈ now.hosts) :
      host.search = none := (hnow h).idle _ (standing_mem hhost)
  have hbeat : w.Alike (eachHost (fun h => h.node.members.isLeader) beat w) :=
    alike_eachHost _ beat fun now host h hhost _ => beat_alike (hnow h) hhost
  have hsweep := hbeat.trans (alike_eachHost (fun h => h.node.members.isLeader) sweep
    fun now host h hhost _ => sweep_alike (hnow (hbeat.trans h)) hhost)
  have hnotice := hsweep.trans (alike_eachHost (fun _ => true) noticeLoss
    fun now host h hhost _ => by
      rw [noticeLoss_eq (hnow (hsweep.trans h)) hhost]
      exact .refl now)
  have htakes := hnotice.trans (alike_eachHost takesOver moveOn
    fun now host h hhost hp => by
      rw [takesOver, hsearch (hnotice.trans h) hhost] at hp
      cases hp)
  exact htakes.trans (alike_eachHost _ moveOn fun now host h hhost hp => by
    rw [hsearch (htakes.trans h) hhost] at hp
    cases hp)

theorem Calm.rounds [ScanOrder] (n : Nat) (hcalm : Calm w.standings) : w.Alike (rounds n w) := by
  induction n generalizing w with
  | zero => exact .refl w
  | succ n ih =>
    have hround := hcalm.round
    rw [← hround.standings] at hcalm
    exact hround.trans (ih hcalm)

/-- A calm network stays as it stands. -/
theorem Calm.settle [ScanOrder] (hcalm : Calm w.standings) : w.Alike w.settle := hcalm.rounds _

end World
end Network
end CrawlCluster
