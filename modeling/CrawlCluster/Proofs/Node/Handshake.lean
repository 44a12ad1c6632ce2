import CrawlCluster.Proofs.Node.Asking
import CrawlCluster.Proofs.Node.Lifetime
import CrawlCluster.Proofs.Roster.Naming

set_option autoImplicit false

namespace CrawlCluster

namespace Node

open Coordinator (Site)
open Roster (Askable JoinAnswer joinFrame seenFrom)

variable {σ ν τ : Type} {link : Link ν} {l : Life σ ν}

namespace Life

/-- The node was set up with the default separators, and has lived until now. -/
def Lived (link : Link ν) (l : Life σ ν) : Prop :=
  ∃ settings desk net happenings, settings.delimiters = {} ∧
    (fresh settings desk net).run link happenings = l

theorem Lived.followers (h : l.Lived link) : l.node.delimiters = {} ∧
    l.node.members.followers.Nodup ∧ ∀ p ∈ l.node.members.followers, p.Plain {} := by
  obtain ⟨settings, desk, net, happenings, hd, rfl⟩ := h
  have hfits := fits_fresh settings desk net
  have hlists := hfits.run_keeps (fun hleads => hleads.members.coherent)
    Roster.State.coherent_empty link happenings
  have hplain : ∀ {l later : Life σ ν}, l.Leads later →
      (l.node.delimiters = {} ∧ ∀ p ∈ l.node.members.followers, p.Plain {}) →
      later.node.delimiters = {} ∧ ∀ p ∈ later.node.members.followers, p.Plain {} := by
    intro l later hleads hl
    refine ⟨(congrArg _ hleads.settings).trans hl.1, fun p hp => ?_⟩
    rcases hleads.members.followers hp with hp | ⟨body, remote, hp⟩
    · exact hl.2 p hp
    · exact Roster.plain_of_joinerIdentity (hl.1 ▸ hp)
  obtain ⟨-, hnode, hall⟩ := hfits.run_keeps hplain ⟨hd, nofun⟩ link happenings
  exact ⟨hnode, hlists.2.followers, hall⟩

end Life

def dial (link : Link ν) (site : Site σ) (conn : Connection) (closed : Bool) :
    Link (Placed σ ν) where
  exchange _ frame there :=
    let served := serve link site conn frame there
    (.bytes served.1 closed, served.2)

theorem exchange_dial (link : Link ν) (site : Site σ) (conn : Connection) (closed : Bool)
    (target : Peer) (frame : Bytes) (there : Placed σ ν) :
    (dial link site conn closed).exchange target frame there =
      (.bytes (serve link site conn frame there).1 closed,
        (serve link site conn frame there).2) := rfl

section Joining

variable (h : l.Lived link) (hlead : l.node.members.role = .leader) (site : Site σ)
variable (conn : Connection) {me : Peer} (hme : Askable me)
variable (hsize : (Text.encode ((JoinAnswer.accepted (seenFrom conn.remote me)
  (l.node.members.followers.filter (· ≠ seenFrom conn.remote me))).encode {})).length <
    UInt64.size) (target : Peer) (closed : Bool)
include h hlead hme hsize

/-- What the joiner reads off the answer, and what is left of the leader's members. -/
theorem join_dial : ∃ after, Roster.join (dial link site conn closed) {} me target
      ⟨l.node, l.net⟩ =
        (.ok ⟨target, seenFrom conn.remote me,
          l.node.members.followers.filter (· ≠ seenFrom conn.remote me), []⟩, after) ∧
      after.node.members = l.node.members.addActive (seenFrom conn.remote me) conn.socket := by
  obtain ⟨hnode, -, hplain⟩ := h.followers
  have hframing := Delimiters.framing_default
  have hseen := hme.plain_seenFrom conn.remote
  have hserved : serve link site conn (Roster.joinRequest {} me) ⟨l.node, l.net⟩ = _ :=
    serve_join hframing hnode hme.fits
  obtain ⟨hread, hleft⟩ := welcome_seen conn hframing hnode
    (Roster.joinerIdentity_seen hframing hme.field hseen) (by decide) hlead
    (List.forall_mem_cons.2 ⟨hseen, hplain⟩) hsize closed
  refine ⟨⟨(l.node.welcome conn {} me).2, l.net⟩, ?_, ?_⟩
  · rw [Roster.join, Roster.maxDials, Roster.joinFrom, exchange_dial, hserved]
    simp only [hread]
  · simp only [hleft]

/-- The two ends of a join agree, whatever became of the leader before, if only the bytes of its
answer can be counted in 64 bits: the joiner goes by the name under which its leader sees it. It is
listed once, for the connection it asked over, and on a new connection nobody else is; all others
are listed as they were. Those are whom the joiner sees, with itself behind them. -/
theorem join_agreed {joiner : Node τ} (hd : joiner.delimiters = {})
    (hjoiner : joiner.members.me = me) :
    ∃ joined after, Roster.join (dial link site conn closed) joiner.delimiters joiner.members.me
        target ⟨l.node, l.net⟩ = (.ok joined, after) ∧
      let you := seenFrom conn.remote me
      let ours := (joiner.follow joined).members
      let theirs := after.node.members
      ours.role = .follower target ∧ ours.me = you ∧
      theirs.active.filter (·.peer = you) = [⟨you, conn.socket⟩] ∧
      theirs.active.filter (·.peer ≠ you) = l.node.members.active.filter (·.peer ≠ you) ∧
      ((∀ entry ∈ l.node.members.active, entry.socket ≠ conn.socket) →
        theirs.active.filter (·.socket = conn.socket) = [⟨ours.me, conn.socket⟩]) ∧
      ours.view = theirs.followers.filter (· ≠ you) ++ [you] ∧ ours.view.Nodup := by
  obtain ⟨after, hjoined, htaken⟩ := join_dial h hlead site conn hme hsize target closed
  have hnodup : l.node.members.followers.Nodup := h.followers.2.1
  rw [hd, hjoiner]
  refine ⟨_, after, hjoined, ?_⟩
  intro you ours theirs
  have hours : ours =
      joiner.members.follow target you (l.node.members.followers.filter (· ≠ you)) := rfl
  have htheirs : theirs = l.node.members.addActive you conn.socket := htaken
  have hview := Roster.nodup_moveToEnd hnodup you
  have hme : ours.me = you := by rw [hours, Roster.follow_eq]
  rw [hme, htheirs, Roster.State.others_addActive]
  refine ⟨?_, rfl, ?_, ?_, ?_, ?_⟩
  · rw [hours, Roster.follow_eq]
  · exact Roster.filter_putActive_eq hnodup (by simp) fun entry _ hne => by simpa using hne
  · exact Roster.filter_putActive_ne ⟨you, conn.socket⟩ _
  · intro hnew
    exact Roster.filter_putActive_eq hnodup (by simp) fun entry hentry _ => by
      simpa using hnew entry hentry
  · rw [hours, Roster.State.view_follow _ hview]
    exact ⟨rfl, hview⟩

end Joining

def fromAfar : Connection := { remote := { ip := .v4 10 0 0 5, port := 53000 }, socket := ⟨"d"⟩ }

def unaddressed : Node Store := { members := { me := { port := 9000 } }, desk := { store := {} } }

theorem join_agreed_unaddressed :
    ∃ joined after, Roster.join (dial Link.nobody Life.quietSite fromAfar false) {}
        unaddressed.members.me ⟨"z", 7000⟩
        ⟨(Life.rejoined []).node, (Life.rejoined []).net⟩ = (.ok joined, after) ∧
      (unaddressed.follow joined).members.me = ⟨"10.0.0.5", 9000⟩ ∧
      after.node.members.active.filter (·.socket = ⟨"d"⟩) = [⟨⟨"10.0.0.5", 9000⟩, ⟨"d"⟩⟩] ∧
      after.node.members.active.filter (·.peer ≠ ⟨"10.0.0.5", 9000⟩) =
        [⟨⟨"x", 1⟩, ⟨"c"⟩⟩, ⟨⟨"y", 2⟩, ⟨"b"⟩⟩] := by
  have hlived : (Life.rejoined []).Lived Link.nobody :=
    ⟨{}, { store := {} }, (), Life.rejoining ++ [], rfl, rfl⟩
  have hlead : (Life.rejoined []).node.members.role = .leader := by decide +kernel
  have hme : Askable unaddressed.members.me := ⟨by decide, by decide, by decide +kernel⟩
  have hyou : seenFrom fromAfar.remote unaddressed.members.me = ⟨"10.0.0.5", 9000⟩ := by
    decide +kernel
  obtain ⟨joined, after, hjoined, -, hname, -, hothers, hnew, -⟩ :=
    join_agreed hlived hlead Life.quietSite fromAfar hme (by decide +kernel) ⟨"z", 7000⟩ false
      (rfl : unaddressed.delimiters = {}) rfl
  have hunused : ∀ entry ∈ (Life.rejoined []).node.members.active,
      entry.socket ≠ fromAfar.socket := by decide +kernel
  have hactive : (Life.rejoined []).node.members.active =
      [⟨⟨"x", 1⟩, ⟨"c"⟩⟩, ⟨⟨"y", 2⟩, ⟨"b"⟩⟩] := by decide +kernel
  rw [hyou] at hname hothers
  rw [hactive] at hothers
  have hsocket := hnew hunused
  rw [hname] at hsocket
  exact ⟨joined, after, hjoined, hname, hsocket, hothers⟩

end Node
end CrawlCluster
