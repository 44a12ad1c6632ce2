import CrawlCluster.Proofs.Node.Serving
import CrawlCluster.Proofs.Roster.RoundTrip

set_option autoImplicit false

namespace CrawlCluster

namespace Node

open Coordinator (Site)
open Roster (JoinAnswer Named joinFrame joinRequest readAnswer)

variable {σ ν : Type} {link : Link ν} {site : Site σ} {conn : Connection} {here : Placed σ ν}
variable {d : Delimiters} {me : Peer}

def asked (me : Peer) (node : Node σ) : Node σ :=
  node.record (.request node.members.me me.label .join)

/-- The answer to a request to join, and the node behind it. -/
def welcome (conn : Connection) (d : Delimiters) (me : Peer) (node : Node σ) :
    Frame.Response × Node σ :=
  (node.asked me).takeIn conn (Text.encode (me.encode d))

theorem serve_join (hd : d.Framing) (hnode : here.node.delimiters = d)
    (hme : (joinFrame d me).Fits d) :
    serve link site conn (joinRequest d me) here =
      ((here.node.welcome conn d me).1.encode d,
        { here with node := (here.node.welcome conn d me).2 }) := by
  have hread := hme.readRequest hd []
  rw [List.append_nil] at hread
  have hkind : Frame.RequestKind.ofCode? (joinFrame d me).code = some .join :=
    Frame.RequestKind.ofCode?_code .join
  have hdispatch : dispatch link site conn (joinFrame d me) here =
      ((here.node.welcome conn d me).1,
        { here with node := (here.node.welcome conn d me).2 }) := by
    simp only [dispatch, hkind, Frame.RequestKind.leaderOnly, Bool.false_and, Bool.false_eq_true,
      if_false]
    rfl
  rw [Roster.joinRequest_eq, serve_frame link site conn here hnode hread, hdispatch]

/-- A leader takes in whoever asks, as it sees them, and tells who else is there. -/
theorem welcome_seen (conn : Connection) (hd : d.Framing) {node : Node σ}
    (hnode : node.delimiters = d) {you : Peer}
    (hyou : Roster.joinerIdentity d (Text.encode (me.encode d)) conn.remote = some you)
    (htag : d.fieldChar ∉ JoinAnswer.acceptedTag.toList) (hlead : node.members.role = .leader)
    (hplain : ∀ p ∈ you :: node.members.followers, p.Plain d)
    (hsize : (Text.encode ((JoinAnswer.accepted you
      (node.members.followers.filter (· ≠ you))).encode d)).length < UInt64.size)
    (closed : Bool) :
    readAnswer d (.bytes ((node.welcome conn d me).1.encode d) closed) =
        .ok (.accepted you (node.members.followers.filter (· ≠ you)), []) ∧
      (node.welcome conn d me).2 =
        { node.asked me with members := node.members.addActive you conn.socket } := by
  subst hnode
  have hothers : ∀ p ∈ you :: node.members.followers.filter (· ≠ you),
      p.Plain node.delimiters :=
    fun p hp => hplain p (List.cons_subset_cons you (List.filter_subset_self _) hp)
  have hasked : Roster.joinerIdentity (node.asked me).delimiters
      (Text.encode (me.encode node.delimiters)) conn.remote = some you := hyou
  have hrole : (node.asked me).members.role = .leader := hlead
  have htaken : node.welcome conn node.delimiters me =
      (.success ((JoinAnswer.accepted you (node.members.followers.filter (· ≠ you))).encode
          node.delimiters),
        { node.asked me with members := node.members.addActive you conn.socket }) := by
    simp only [welcome, takeIn, hasked, hrole]
    rfl
  have hread := Roster.readAnswer_success hd closed hsize
  rw [JoinAnswer.parse_accepted hd.field_not_digit htag hothers] at hread
  rw [htaken]
  exact ⟨hread, rfl⟩

section Roles

variable (conn) (hd : d.Framing) {node : Node σ} (hnode : node.delimiters = d) (hme : Named d me)
include hd hnode hme

theorem joiner_asked : Roster.joinerIdentity (node.asked me).delimiters
    (Text.encode (me.encode d)) conn.remote = some me := by
  subst hnode
  exact Roster.joinerIdentity_encode hd hme.plain conn.remote

theorem welcome_leader (htag : d.fieldChar ∉ JoinAnswer.acceptedTag.toList)
    (hlead : node.members.role = .leader)
    (hplain : ∀ p ∈ node.members.followers, p.Plain d)
    (hsize : (Text.encode ((JoinAnswer.accepted me
      (node.members.followers.filter (· ≠ me))).encode d)).length < UInt64.size)
    (closed : Bool) :
    readAnswer d (.bytes ((node.welcome conn d me).1.encode d) closed) =
        .ok (.accepted me (node.members.followers.filter (· ≠ me)), []) ∧
      (node.welcome conn d me).2 =
        { node.asked me with members := node.members.addActive me conn.socket } :=
  have hall : ∀ p ∈ me :: node.members.followers, p.Plain d :=
    List.forall_mem_cons.2 ⟨hme.plain, hplain⟩
  welcome_seen conn hd hnode (Roster.joinerIdentity_encode hd hme.plain conn.remote) htag hlead
    hall hsize closed

theorem welcome_follower {leader : Peer} (hleader : Named d leader)
    (hfollower : node.members.role = .follower leader) (closed : Bool) :
    (readAnswer d (.bytes ((node.welcome conn d me).1.encode d) closed) =
        if leader.address = JoinAnswer.acceptedTag then
          .error (.invalidAnswer .missingFields)
        else .ok (.redirect leader, [])) ∧
      (node.welcome conn d me).2 = node.asked me := by
  have hrole : (node.asked me).members.role = .follower leader := hfollower
  have htaken : node.welcome conn d me =
      (.success ((JoinAnswer.redirect leader).encode d), node.asked me) := by
    simp only [welcome, takeIn, joiner_asked conn hd hnode hme, hrole]
    subst hnode
    rfl
  have hsize : (Text.encode ((JoinAnswer.redirect leader).encode d)).length < UInt64.size :=
    hleader.fits.body
  have hread := Roster.readAnswer_success hd closed hsize
  rw [JoinAnswer.parse_redirect hd.field_not_digit hleader.plain] at hread
  rw [htaken, hread]
  refine ⟨?_, rfl⟩
  by_cases htag : leader.address = JoinAnswer.acceptedTag
  · rw [if_pos htag, if_pos htag]
  · rw [if_neg htag, if_neg htag]

theorem welcome_unready (hunready : node.members.role = .unstarted ∨
    node.members.role = .attemptingJoin) (closed : Bool) :
    readAnswer d (.bytes ((node.welcome conn d me).1.encode d) closed) =
        .error (.refused "Not ready to accept peers.") ∧
      (node.welcome conn d me).2 = node.asked me := by
  have hrole : (node.asked me).members.role = .unstarted ∨
      (node.asked me).members.role = .attemptingJoin := hunready
  have htaken : node.welcome conn d me =
      (.serverError "Not ready to accept peers.", node.asked me) := by
    simp only [welcome, takeIn, joiner_asked conn hd hnode hme]
    rcases hrole with hrole | hrole <;> simp only [hrole]
  have hsize : (Text.encode "Not ready to accept peers.").length < UInt64.size := by decide +kernel
  rw [htaken]
  exact ⟨Roster.readAnswer_serverError hd closed hsize, rfl⟩

end Roles

end Node
end CrawlCluster
