import CrawlCluster.Network.Exchange
import CrawlCluster.Proofs.Node.Serving
import Mathlib.Data.List.Find
import Mathlib.Data.List.Nodup

/-!
What it takes for a node to be reached: what is sent to it is served, and it is left as serving
leaves it. On the network the host that leads at an address is reached by dialling it, with the
store it shares.
-/

set_option autoImplicit false

namespace CrawlCluster

open Coordinator (Site)

/-- Dialling `address`, in a network that is `up`, leads to one node, the one that `there` sees in
it: that node serves what it is sent, and is left as serving leaves it. -/
structure Node.Reaches {ν τ : Type} (link : Link ν) (address : Peer) (site : Site τ)
    (there : ν → Node τ) (up : ν → Prop) : Prop where
  served : ∀ frame net, up net →
    ∃ (κ : Type) (onward : Link κ) (beyond : κ) (conn : Connection) (closed : Bool),
      (link.exchange address frame net).1 =
          .bytes (serve onward site conn frame ⟨there net, beyond⟩).1 closed ∧
        there (link.exchange address frame net).2 =
          (serve onward site conn frame ⟨there net, beyond⟩).2.node ∧
        up (link.exchange address frame net).2

namespace Network

namespace World

variable {address : Peer} {w : World} {host : Host}

def at? (address : Peer) (w : World) : Option Host :=
  w.hosts.find? fun h => h.isRunning && h.isAt address

/-- A host leads at the address, with these settings and at this time. Hosts go by their names. -/
structure Led (address : Peer) (settings : Coordinator.Settings) (now : Int64) (w : World) :
    Prop where
  leads : ∃ host, w.at? address = some host ∧ host.node.members.role = .leader ∧
    host.node.settings = settings
  named : (w.hosts.map (·.name)).Nodup
  time : w.now = now

def leaderAt (address : Peer) (w : World) : Node FaultyStore :=
  match w.at? address with
  | some host => (w.load host).node
  | none => { desk := { store := {} } }

theorem store_putStore (name : String) (store : Store) (w : World) :
    (w.putStore name store).store name = store := by
  simp [World.store, putStore]

theorem at?_putHost (hnamed : (w.hosts.map (·.name)).Nodup) (hat : w.at? address = some host)
    (node : Node FaultyStore) :
    (w.putHost { host with node }).at? address = some { host with node } := by
  have hsame : ∀ h ∈ w.hosts, h.name = host.name → h = host := fun h hh hname =>
    List.inj_on_of_nodup_map hnamed hh (List.mem_of_find?_eq_some hat) hname
  have hpasses : ∀ h ∈ w.hosts,
      ((fun h => h.isRunning && h.isAt address) ∘
        fun h => if h.name = host.name then { host with node } else h) h =
      (h.isRunning && h.isAt address) := by
    intro h hh
    by_cases hname : h.name = host.name
    · obtain rfl := hsame h hh hname
      simp only [Function.comp_apply, if_true]
      rfl
    · simp only [Function.comp_apply, if_neg hname]
  rw [at?, putHost, List.find?_map, List.find?_congr hpasses]
  rw [at?] at hat
  simp [hat]

theorem named_putHost (host : Host) (node : Node FaultyStore) (w : World) :
    (w.putHost { host with node }).hosts.map (·.name) = w.hosts.map (·.name) := by
  rw [putHost, List.map_map]
  refine List.map_congr_left fun h _ => ?_
  by_cases hname : h.name = host.name
  · simp [hname]
  · simp [hname]

def afterCall (host : Host) (node : Node FaultyStore) (w : World) : World :=
  ((w.connect host.name).putHost { host with node }).putStore host.store node.desk.rows

variable [ScanOrder]

/-- A leader calls nobody while it serves a call, and has touched its store when it is done. -/
theorem exchange_leader (depth : Nat) (frame : Bytes) (hat : w.at? address = some host)
    (hlead : host.node.members.role = .leader) :
    ∃ conn : Connection,
      let served := Node.serve ⟨exchange depth⟩ (host.site w.now) conn frame
        ⟨(w.load host).node, w.connect host.name⟩
      exchange (depth + 1) address frame w =
          (.bytes served.1 false, w.afterCall host served.2.node) ∧
        served.2.node.settings = host.node.settings ∧
        served.2.node.members.role = .leader := by
  refine ⟨{ remote := { ip := Net.Ip.loopback, port := 0 },
            ownIp := if host.bound.ip.isUnspecified then Net.Ip.loopback else host.bound.ip,
            socket := (w.connect host.name).latest.socket }, ?_⟩
  intro served
  have hbehind : (w.load host).node.members.role = .leader := hlead
  obtain ⟨hnet, hsettings, hstill⟩ :
      served.2.net = w.connect host.name ∧
        served.2.node.settings = (w.load host).node.settings ∧
        served.2.node.members.role = .leader := Node.respondAll_leader hbehind
  have hcall : exchange (depth + 1) address frame w = (.bytes served.1 false,
      served.2.net.save { w.load host with node := served.2.node }) := by
    rw [at?] at hat
    simp only [exchange, hat, Host.take, served]
    rfl
  refine ⟨?_, hsettings, hstill⟩
  rw [hcall, hnet, save, if_pos]
  · rfl
  · exact Node.isLeader_eq_true.2 hstill

/-- The leader at an address is reached by dialling it. -/
theorem reaches (depth : Nat) (address : Peer) (settings : Coordinator.Settings) (now : Int64) :
    Node.Reaches ⟨exchange (depth + 1)⟩ address (settings.site now) (leaderAt address)
      (Led address settings now) where
  served frame w hled := by
    obtain ⟨⟨host, hat, hlead, hsettings⟩, hnamed, htime⟩ := hled
    obtain ⟨conn, hcall, hkept, hstill⟩ := exchange_leader depth frame hat hlead
    subst hsettings htime
    have hfound (node : Node FaultyStore) :
        (w.afterCall host node).at? address = some { host with node } :=
      at?_putHost (w := w.connect host.name) hnamed hat node
    have hthere : leaderAt address w = (w.load host).node := by
      rw [leaderAt, hat]
    have hleft (node : Node FaultyStore) : leaderAt address (w.afterCall host node) = node := by
      rw [leaderAt, hfound]
      show (Host.withStore _ _).node = node
      rw [afterCall, store_putStore]
      rfl
    refine ⟨World, ⟨exchange depth⟩, w.connect host.name, conn, false, ?_, ?_, ?_⟩
    · rw [hthere]
      exact congrArg Prod.fst hcall
    · rw [hthere]
      show leaderAt address (exchange (depth + 1) address frame w).2 = _
      rw [hcall, hleft]
      rfl
    · show Led address _ _ (exchange (depth + 1) address frame w).2
      rw [hcall]
      exact ⟨⟨_, hfound _, hstill, hkept⟩,
        (congrArg List.Nodup (named_putHost host _ (w.connect host.name))).mpr hnamed, rfl⟩

end World
end Network
end CrawlCluster
