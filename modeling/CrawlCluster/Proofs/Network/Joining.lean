import CrawlCluster.Proofs.Network.Dialling
import CrawlCluster.Proofs.Network.Standing
import CrawlCluster.Proofs.Node.Asking

set_option autoImplicit false

namespace CrawlCluster.Network

open Roster (JoinAnswer JoinError Joined Named joinFrom joinRequest readAnswer)

def Standing.isAt (peer : Peer) (s : Standing) : Bool :=
  let ip := if s.bound.ip.isUnspecified then Net.Ip.loopback else s.bound.ip
  s.condition == .running && reaches peer { s.bound with ip }

namespace World

variable {w : World} {host : Host} {d : Delimiters} {me target : Peer} {depth : Nat}

theorem map_at? (target : Peer) (w : World) :
    (w.at? target).map Host.standing = w.standings.find? (·.isAt target) := by
  rw [standings, List.find?_map, at?]
  rfl

theorem standings_save (host : Host) (w : World) :
    (w.save host).standings = (w.putHost host).standings := by
  rw [save]
  split <;> rfl

theorem fakes_save (host : Host) (w : World) : (w.save host).fakes = w.fakes := by
  rw [save]
  split <;> rfl

theorem latest_save (host : Host) (w : World) : (w.save host).latest = w.latest := by
  rw [save]
  split <;> rfl

def deep [ScanOrder] (depth : Nat) : Link World := ⟨exchange (depth + 1)⟩

theorem exchange_nobody [ScanOrder] (hat : w.at? target = none) (hfakes : w.fakes = [])
    (frame : Bytes) :
    (deep depth).exchange target frame w = (.refused, w) := by
  rw [at?] at hat
  simp only [deep, exchange, hat, hfakes, List.find?_nil]

def afterTaking (host : Host) (node : Node FaultyStore) (w : World) : World :=
  (w.connect host.name).save { w.load host with node }

theorem standings_afterTaking (host : Host) (node : Node FaultyStore) (w : World) :
    (w.afterTaking host node).standings = w.standings.map fun s =>
      if s.name = host.name then { host.standing with place := node.place } else s := by
  rw [afterTaking, standings_save, standings_putHost]
  rfl

theorem fakes_afterTaking (host : Host) (node : Node FaultyStore) (w : World) :
    (w.afterTaking host node).fakes = w.fakes := fakes_save ..

theorem latest_afterTaking (host : Host) (node : Node FaultyStore) (w : World) :
    (w.afterTaking host node).latest = { socket := ⟨w.dialled.repr⟩, leader := host.name } :=
  latest_save ..

theorem alike_afterTaking (hnamed : (w.standings.map (·.name)).Nodup) (hhost : host ∈ w.hosts)
    {node : Node FaultyStore} (hplace : node.place = host.node.place) :
    w.Alike (w.afterTaking host node) := by
  have hstanding : { w.load host with node }.standing = host.standing :=
    Host.standing_node host hplace
  have hsave := @alike_save (w.connect host.name) { w.load host with node } hnamed
  rw [hstanding] at hsave
  have hsaved := hsave (standing_mem hhost)
  exact ⟨hsaved.standings, hsaved.fakes⟩

theorem delimiters_load (w : World) (hhost : host.node.delimiters = d) :
    (w.load host).node.delimiters = d := hhost

section Asking

variable (depth) (hd : d.Framing) (hat : w.at? target = some host)
variable (hhost : host.node.delimiters = d) (hme : Named d me)
variable (hnamed : (w.standings.map (·.name)).Nodup)
include hd hat hhost hme

variable [ScanOrder]

theorem exchange_join : ∃ conn : Connection, conn.socket = ⟨w.dialled.repr⟩ ∧
    (deep depth).exchange target (joinRequest d me) w =
      (.bytes (((w.load host).node.welcome conn d me).1.encode d) false,
        w.afterTaking host ((w.load host).node.welcome conn d me).2) := by
  let conn : Connection :=
    { remote := { ip := Net.Ip.loopback, port := 0 }
      ownIp := if host.bound.ip.isUnspecified then Net.Ip.loopback else host.bound.ip
      socket := (w.connect host.name).latest.socket }
  refine ⟨conn, rfl, ?_⟩
  have hserve : Node.serve ⟨exchange depth⟩ (host.site w.now) conn (joinRequest d me)
      ⟨(w.load host).node, w.connect host.name⟩ = _ := Node.serve_join hd hhost hme.fits
  have hcall : (deep depth).exchange target (joinRequest d me) w =
      (.bytes (Node.serve ⟨exchange depth⟩ (host.site w.now) conn (joinRequest d me)
          ⟨(w.load host).node, w.connect host.name⟩).1 false,
        (Node.serve ⟨exchange depth⟩ (host.site w.now) conn (joinRequest d me)
          ⟨(w.load host).node, w.connect host.name⟩).2.net.save
            { w.load host with
              node := (Node.serve ⟨exchange depth⟩ (host.site w.now) conn (joinRequest d me)
                ⟨(w.load host).node, w.connect host.name⟩).2.node }) := by
    rw [at?] at hat
    simp only [deep, exchange, hat, Host.take]
    rfl
  rw [hcall, hserve, afterTaking]

/-- A leader that is asked lists the joiner, on the connection made last. -/
theorem joinFrom_leader (htag : d.fieldChar ∉ JoinAnswer.acceptedTag.toList)
    (hrole : host.node.members.role = .leader)
    (hplain : ∀ p ∈ host.node.members.followers, p.Plain d)
    (hsize : (Text.encode ((JoinAnswer.accepted me
      (host.node.members.followers.filter (· ≠ me))).encode d)).length < UInt64.size)
    (dials : Nat) : ∃ after,
      joinFrom (deep depth) d me (dials + 1) target w =
          (.ok ⟨target, me, host.node.members.followers.filter (· ≠ me), []⟩, after) ∧
        after.standings = w.standings.map (fun s =>
          if s.name = host.name then
            { host.standing with
              place := { host.node.place with
                active := Roster.putActive ⟨me, after.latest.socket⟩ host.node.members.active } }
          else s) ∧
        after.fakes = w.fakes ∧ after.latest.leader = host.name := by
  obtain ⟨conn, hsocket, hcall⟩ := exchange_join depth hd hat hhost hme
  obtain ⟨hread, hleft⟩ :=
    Node.welcome_leader conn hd (delimiters_load w hhost) hme htag hrole hplain hsize false
  refine ⟨w.afterTaking host ((w.load host).node.welcome conn d me).2, ?_, ?_,
    fakes_afterTaking .., ?_⟩
  · rw [joinFrom, hcall]
    simp only [hread]
    rfl
  · rw [standings_afterTaking, latest_afterTaking, hleft, ← hsocket]
    rfl
  · rw [latest_afterTaking]

include hnamed

theorem joinFrom_unready (hrole : host.node.members.role = .attemptingJoin) (dials : Nat) :
    ∃ after, w.Alike after ∧ joinFrom (deep depth) d me (dials + 1) target w =
      (.error (.refused "Not ready to accept peers."), after) := by
  obtain ⟨conn, -, hcall⟩ := exchange_join depth hd hat hhost hme
  obtain ⟨hread, hleft⟩ :=
    Node.welcome_unready conn hd (delimiters_load w hhost) hme (.inr hrole) false
  have hplace : ((w.load host).node.welcome conn d me).2.place = host.node.place := by
    rw [hleft]
    rfl
  refine ⟨_, alike_afterTaking hnamed (List.mem_of_find?_eq_some hat) hplace, ?_⟩
  rw [joinFrom, hcall]
  simp only [hread]

theorem joinFrom_follower {leader : Peer} (hleader : Named d leader)
    (hrole : host.node.members.role = .follower leader)
    (htag : leader.address ≠ JoinAnswer.acceptedTag) (hother : leader ≠ me) (dials : Nat) :
    ∃ after, w.Alike after ∧ joinFrom (deep depth) d me (dials + 1) target w =
      joinFrom (deep depth) d me dials leader after := by
  obtain ⟨conn, -, hcall⟩ := exchange_join depth hd hat hhost hme
  obtain ⟨hread, hleft⟩ :=
    Node.welcome_follower conn hd (delimiters_load w hhost) hme hleader hrole false
  rw [if_neg htag] at hread
  have hplace : ((w.load host).node.welcome conn d me).2.place = host.node.place := by
    rw [hleft]
    rfl
  refine ⟨_, alike_afterTaking hnamed (List.mem_of_find?_eq_some hat) hplace, ?_⟩
  rw [joinFrom, hcall]
  simp only [hread, if_neg hother]

end Asking

end World
end CrawlCluster.Network
