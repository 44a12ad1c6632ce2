import CrawlCluster.Proofs.Network.Dialling

set_option autoImplicit false

namespace CrawlCluster

def Frame.Request.IsJob (r : Request) : Prop :=
  ∃ kind, RequestKind.ofCode? r.code = some kind ∧ kind.isJob = true

namespace Node

open Coordinator (Site)

variable {σ τ ν κ : Type}

section Step

variable {link : Link ν} {address : Peer} {site : Site τ} {there : ν → Node τ} {up : ν → Prop}
variable {net : ν} {r : Frame.Request} {kind : Frame.RequestKind}

theorem forward_job (hreach : Reaches link address site there up) (hup : up net)
    (hd : (there net).delimiters.Framing) (hlead : (there net).members.role = .leader)
    (hkind : Frame.RequestKind.ofCode? r.code = some kind) (hjob : kind.isJob = true)
    (hread : Frame.readRequest (there net).delimiters (r.encode (there net).delimiters) =
      (.frame r, []))
    (direct : Connection)
    (hsize : ((there net).handle site direct kind r).1.message.length < UInt64.size) :
    ∃ left, forward link (there net).delimiters (.follower address) r net =
        (((there net).handle site direct kind r).1, left) ∧
      there left = ((there net).handle site direct kind r).2 ∧ up left := by
  obtain ⟨_, onward, beyond, conn, closed, hreply, hleft, hstill⟩ :=
    hreach.served (r.encode (there net).delimiters) net hup
  have hhere : (Placed.mk (there net) beyond).node.members.role = .leader := hlead
  have hserved := serve_frame onward site conn ⟨there net, beyond⟩ rfl hread
  rw [dispatch_leader hhere hkind, handle_conn hjob r (there net) conn direct] at hserved
  have hanswer := Frame.readResponse_encode hd hsize []
  rw [List.append_nil] at hanswer
  rw [hserved] at hreply hleft
  refine ⟨_, ?_, hleft, hstill⟩
  simp only [forward, hreply, Roster.readReply, hanswer]

/-- What the leader would have answered, the follower answers; and each of them is left so. -/
theorem dispatch_follower (here : Site σ) (conn : Connection)
    (hreach : Reaches link address site there up) (hup : up net)
    {follower : Node σ} (hd : follower.delimiters.Framing)
    (hfollower : follower.members.role = .follower address)
    (hlead : (there net).members.role = .leader)
    (hsame : (there net).delimiters = follower.delimiters) (hr : r.IsJob)
    (hread : Frame.readRequest follower.delimiters (r.encode follower.delimiters) = (.frame r, []))
    {direct : Connection} {onward : Link κ} {beyond : κ}
    (hsize : (dispatch onward site direct r ⟨there net, beyond⟩).1.message.length < UInt64.size) :
    ∃ left, dispatch link here conn r ⟨follower, net⟩ =
        ((dispatch onward site direct r ⟨there net, beyond⟩).1, ⟨follower, left⟩) ∧
      dispatch onward site direct r ⟨there net, beyond⟩ =
        ((dispatch onward site direct r ⟨there net, beyond⟩).1, ⟨there left, beyond⟩) ∧
      (there left).members = (there net).members ∧
      (there left).delimiters = (there net).delimiters ∧ up left := by
  obtain ⟨kind, hkind, hjob⟩ := hr
  have hhere : (Placed.mk (there net) beyond).node.members.role = .leader := hlead
  rw [dispatch_leader hhere hkind] at hsize ⊢
  rw [← hsame] at hd hread
  obtain ⟨left, hforward, hleft, hstill⟩ :=
    forward_job hreach hup hd hlead hkind hjob hread direct hsize
  obtain ⟨hmembers, hsettings⟩ := handle_members site direct hjob r (there net)
  refine ⟨left, ?_, ?_, ?_, ?_, hstill⟩
  · have hrole : follower.members.isLeader = false := by
      simp [Roster.State.isLeader, hfollower]
    simp only [dispatch, hkind, Frame.RequestKind.leaderOnly_of_isJob hjob, hrole, Bool.not_false,
      Bool.and_self, if_true, hfollower, ← hsame, hforward]
  · rw [hleft]
  · rw [hleft]
    exact hmembers
  · rw [hleft, delimiters, hsettings]
    rfl

theorem respondAll_follower (here : Site σ) (conn : Connection)
    (hreach : Reaches link address site there up) (hup : up net)
    {follower : Node σ} (hd : follower.delimiters.Framing)
    (hfollower : follower.members.role = .follower address)
    (hlead : (there net).members.role = .leader)
    (hsame : (there net).delimiters = follower.delimiters)
    {received : List (Except Frame.HeaderError Frame.Request)}
    (hreceived : ∀ r, .ok r ∈ received → r.IsJob ∧
      Frame.readRequest follower.delimiters (r.encode follower.delimiters) = (.frame r, []))
    {direct : Connection} {onward : Link κ} {beyond : κ}
    (hsize : ∀ answer ∈ (respondAll onward site direct received ⟨there net, beyond⟩).1,
      answer.message.length < UInt64.size) :
    ∃ left, respondAll link here conn received ⟨follower, net⟩ =
        ((respondAll onward site direct received ⟨there net, beyond⟩).1, ⟨follower, left⟩) ∧
      (respondAll onward site direct received ⟨there net, beyond⟩).2 = ⟨there left, beyond⟩ := by
  induction received generalizing net with
  | nil => exact ⟨net, rfl, rfl⟩
  | cons first received ih =>
    have hrest : ∀ r, .ok r ∈ received → r.IsJob ∧ Frame.readRequest follower.delimiters
        (r.encode follower.delimiters) = (.frame r, []) := fun r hr =>
      hreceived r (List.mem_cons_of_mem _ hr)
    cases first with
    | error error =>
      simp only [respondAll, respond, List.mem_cons, forall_eq_or_imp] at hsize ⊢
      obtain ⟨left, hrelayed, htold⟩ := ih hup hlead hsame hrest hsize.2
      exact ⟨left, by rw [hrelayed], htold⟩
    | ok r =>
      obtain ⟨hjob, hread⟩ := hreceived r (by simp)
      simp only [respondAll, respond, List.mem_cons, forall_eq_or_imp] at hsize ⊢
      obtain ⟨next, hrelayed, htold, hmembers, hdelimiters, hstill⟩ := dispatch_follower here conn
        hreach hup hd hfollower hlead hsame hjob hread hsize.1
      rw [htold] at hsize
      obtain ⟨left, hothers, hdone⟩ := ih hstill (by rw [hmembers, hlead])
        (hdelimiters.trans hsame) hrest hsize.2
      refine ⟨left, ?_, ?_⟩
      · rw [hrelayed, hothers, htold]
      · rw [htold]
        exact hdone

end Step

/-- A request read off any stream, between any separators, is read again from the frame it is
written as. So where only jobs are asked for, a client of a follower whose leader can be reached
is answered byte for byte as it would be by the leader itself on a connection of its own, and the
leader is left as it would be by that; the follower is left as it was. Bytes are counted in 64
bits. -/
theorem forwarding_transparent :
    (∀ (d : Delimiters) (bytes rest : Bytes) (r : Frame.Request),
      Frame.readRequest d bytes = (.frame r, rest) →
        Frame.readRequest d (r.encode d) = (.frame r, [])) ∧
    ∀ {σ τ ν κ : Type} {follower : Node σ} {address : Peer} {link : Link ν} {site : Site τ}
      {there : ν → Node τ} {up : ν → Prop} {net : ν}, follower.delimiters.Framing →
      follower.members.role = .follower address → Reaches link address site there up → up net →
      (there net).members.role = .leader → (there net).delimiters = follower.delimiters →
      ∀ (here : Site σ) (conn direct : Connection) (onward : Link κ) (beyond : κ) (bytes : Bytes),
        (∀ r, .ok r ∈ Frame.readRequests follower.delimiters bytes → r.IsJob) →
        let told := serve onward site direct bytes ⟨there net, beyond⟩
        told.1.length < UInt64.size →
        let relayed := serve link here conn bytes ⟨follower, net⟩
        relayed.1 = told.1 ∧ there relayed.2.net = told.2.node ∧ relayed.2.node = follower := by
  -- even if digits separate the fields: the length written has no digit that the one read lacked
  have hagain : ∀ (d : Delimiters) (bytes rest : Bytes) (r : Frame.Request),
      Frame.readRequest d bytes = (.frame r, rest) →
        Frame.readRequest d (r.encode d) = (.frame r, []) := by
    intro d bytes rest r h
    have hread := Frame.readRequest_again h []
    rwa [List.append_nil] at hread
  refine ⟨hagain, ?_⟩
  intro σ τ ν κ follower address link site there up net hd hfollower hreach hup hlead hsame here
    conn direct onward beyond bytes hjobs told hsize relayed
  have hreceived : ∀ r, .ok r ∈ Frame.readRequests follower.delimiters bytes → r.IsJob ∧
      Frame.readRequest follower.delimiters (r.encode follower.delimiters) = (.frame r, []) := by
    intro r hr
    obtain ⟨front, rest, hfront⟩ := Frame.read_of_mem_takeAll hr
    exact ⟨hjobs r hr, hagain _ front rest r hfront⟩
  have htold : told =
      ((respondAll onward site direct (Frame.readRequests follower.delimiters bytes)
          ⟨there net, beyond⟩).1.flatMap (·.encode follower.delimiters),
        (respondAll onward site direct (Frame.readRequests follower.delimiters bytes)
          ⟨there net, beyond⟩).2) := by
    rw [← hsame]
    rfl
  rw [htold] at hsize ⊢
  obtain ⟨left, hrelayed, hdone⟩ := respondAll_follower here conn hreach hup hd hfollower hlead
    hsame hreceived fun answer hanswer =>
      Nat.lt_of_le_of_lt (length_message_le hanswer) hsize
  have hserve : relayed =
      ((respondAll onward site direct (Frame.readRequests follower.delimiters bytes)
          ⟨there net, beyond⟩).1.flatMap (·.encode follower.delimiters), ⟨follower, left⟩) := by
    simp only [relayed, serve, hrelayed]
  rw [hserve, hdone]
  exact ⟨rfl, rfl, rfl⟩

def lone : Network.World where
  hosts := [{
    name := "first", bound := { ip := Net.Ip.loopback, port := 8003 }, parameters := {}
    store := "jobs", node := { members := { role := .leader }, desk := { store := {} } } }]

def loneAddress : Peer := ⟨"127.0.0.1", 8003⟩

def onlyFollower : Node FaultyStore where
  members := { role := .follower loneAddress }
  desk := { store := {} }

def caller : Connection where
  remote := { ip := Net.Ip.loopback, port := 40000 }
  socket := ⟨"caller"⟩

def loose : Bytes := Text.encode "upjb?w? +0012 ?more\nhttps://x?1\ngtjb?w\ngtjb?w?0\n"

theorem readRequests_loose : Frame.readRequests {} loose =
    [.ok ⟨"upjb", "w", Text.encode "https://x?1\n"⟩, .error .tooShort, .ok ⟨"gtjb", "w", []⟩] := by
  decide +kernel

theorem forwarding_transparent_loose :
    Reaches lone.link loneAddress (Coordinator.Settings.site 0 {})
        (Network.World.leaderAt loneAddress) (Network.World.Led loneAddress {} 0) ∧
      Network.World.Led loneAddress {} 0 lone ∧
      (∀ r, .ok r ∈ Frame.readRequests {} loose → r.IsJob) ∧
      let told := serve .nobody (Coordinator.Settings.site 0 {}) caller loose
        ⟨Network.World.leaderAt loneAddress lone, ()⟩
      told.1.length < UInt64.size ∧
        let relayed := serve lone.link (Coordinator.Settings.site 0 {}) caller loose
          ⟨onlyFollower, lone⟩
        relayed.1 = told.1 ∧ Network.World.leaderAt loneAddress relayed.2.net = told.2.node ∧
          relayed.2.node = onlyFollower := by
  have hreach : Reaches lone.link loneAddress (Coordinator.Settings.site 0 {})
      (Network.World.leaderAt loneAddress) (Network.World.Led loneAddress {} 0) :=
    Network.World.reaches 1 loneAddress {} 0
  have hled : Network.World.Led loneAddress {} 0 lone :=
    ⟨⟨_, rfl, rfl, rfl⟩, by decide, by decide⟩
  have hjobs : ∀ r, .ok r ∈ Frame.readRequests {} loose → r.IsJob := by
    rw [readRequests_loose]
    intro r hr
    simp only [List.mem_cons, List.not_mem_nil, or_false, reduceCtorEq, false_or,
      Except.ok.injEq] at hr
    obtain rfl | rfl := hr
    · exact ⟨.uploadJobs, rfl, rfl⟩
    · exact ⟨.takeJob, rfl, rfl⟩
  have hsize : (serve .nobody (Coordinator.Settings.site 0 {}) caller loose
      ⟨Network.World.leaderAt loneAddress lone, ()⟩).1.length < UInt64.size := by
    decide +kernel
  have hd : onlyFollower.delimiters.Framing := Delimiters.framing_default
  exact ⟨hreach, hled, hjobs, hsize, forwarding_transparent.2 hd rfl hreach hled rfl rfl
    (Coordinator.Settings.site 0 {}) caller caller .nobody () loose hjobs hsize⟩

end Node
end CrawlCluster
