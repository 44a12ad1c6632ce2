import CrawlCluster.Node.Life
import CrawlCluster.Proofs.Node.Serving
import CrawlCluster.Proofs.Roster.Coherence

set_option autoImplicit false

namespace CrawlCluster

namespace Node

open Coordinator (Site)
open Roster (Search Socket)

variable {σ ν : Type} {link : Link ν}

theorem takeIn_becomes (conn : Connection) (body : Bytes) (node : Node σ) :
    node.members.Becomes node.delimiters (node.takeIn conn body).2.members := by
  unfold takeIn
  simp only
  cases hpeer : Roster.joinerIdentity node.delimiters body conn.remote with
  | none => exact .same
  | some peer =>
    cases hrole : node.members.role with
    | leader => exact .takeIn hrole hpeer conn.socket
    | _ => exact .same

theorem handle_becomes (site : Site σ) (conn : Connection) (kind : Frame.RequestKind)
    (req : Frame.Request) (node : Node σ) :
    node.members.Becomes node.delimiters (node.handle site conn kind req).2.members := by
  cases hjob : kind.isJob with
  | true =>
    rw [(handle_members site conn hjob req node).1]
    exact .same
  | false =>
    obtain rfl | rfl | rfl := Frame.RequestKind.of_not_isJob hjob
    · exact takeIn_becomes conn req.body (node.record (.request node.members.me req.client .join))
    · exact .same
    · exact .same

/-- All that a request can do to what a node is. -/
theorem respond_becomes (link : Link ν) (site : Site σ) (conn : Connection) (here : Placed σ ν)
    (received : Except Frame.HeaderError Frame.Request) :
    let there := (respond link site conn here received).2.node
    there.settings = here.node.settings ∧ there.members.role = here.node.members.role ∧
      here.node.members.Becomes here.node.delimiters there.members := by
  cases received with
  | error error => exact ⟨rfl, rfl, .same⟩
  | ok req =>
    simp only [respond, dispatch]
    cases Frame.RequestKind.ofCode? req.code with
    | none => exact ⟨rfl, rfl, .same⟩
    | some kind =>
      simp only
      split
      · exact ⟨rfl, rfl, .same⟩
      · obtain ⟨hsettings, hrole⟩ := handle_kept site conn kind req here.node
        exact ⟨hsettings, hrole, handle_becomes ..⟩

/-- All that a frame from the leader can do. -/
theorem hear_becomes (received : Except Frame.HeaderError Frame.Request) {node : Node σ}
    (hrole : node.members.role ≠ .leader) :
    (node.hear received).settings = node.settings ∧
      (node.hear received).members.role = node.members.role ∧
      node.members.Becomes node.delimiters (node.hear received).members := by
  cases received with
  | error error => exact ⟨rfl, rfl, .same⟩
  | ok req =>
    simp only [hear]
    cases readHeartbeat? node.delimiters req with
    | none => exact ⟨rfl, rfl, .same⟩
    | some beat =>
      refine ⟨rfl, ?_, .hear hrole beat.changes⟩
      simp only [applyHeartbeat, Roster.applyAll_eq]

/-- What a node is about besides serving its connections. -/
inductive Errand where
  | unstarted
  /-- The seeds still to be asked. -/
  | joining (seeds : List Peer)
  | following
  | seeking (search : Search)
  | leading
  /-- It was told to stop, or found nobody to follow. -/
  | stopped
  deriving DecidableEq, Repr

structure Life (σ ν : Type) where
  node : Node σ
  net : ν
  errand : Errand := .unstarted

inductive Happening (σ ν : Type) where
  | start (p : Parameters) (bound : Net.Endpoint)
  /-- The next move of its own, while it looks for a leader. -/
  | proceed (site : Site σ)
  /-- One frame, or a header that cannot be used, on a connection that is served. -/
  | request (site : Site σ) (conn : Connection)
    (received : Except Frame.HeaderError Frame.Request)
  /-- The same on the connection to the leader. -/
  | hear (received : Except Frame.HeaderError Frame.Request)
  | loseLeader
  /-- A heartbeat is sent. -/
  | beat
  /-- A heartbeat could not be written to the socket. -/
  | loseSocket (socket : Socket)
  | stop
  /-- Whatever else goes on in the network. -/
  | elsewhere (net : ν)

/-- What a node is about says how far its role has come. -/
def Errand.Fits : Errand → Roster.Role → Prop
  | .unstarted, role => role = .unstarted
  | .joining _, role | .seeking _, role => role = .attemptingJoin
  | .following, role => ∃ leader, role = .follower leader
  | .leading, role => role = .leader
  | .stopped, _ => True

namespace Life

def fresh (settings : Coordinator.Settings) (desk : Coordinator.State σ) (net : ν) : Life σ ν :=
  { node := { settings, desk }, net }

def start (p : Parameters) (bound : Net.Endpoint) (l : Life σ ν) : Life σ ν :=
  match l.errand with
  | .unstarted =>
    let me := Roster.initialIdentity p.advertise bound
    let node :=
      { l.node with members := { l.node.members with me, role := .attemptingJoin } }
    let seeds := p.seeds.filter fun seed => !Roster.isSelf seed me bound
    { l with node, errand := .joining (if p.assumeLeader then [] else seeds) }
  | _ => l

def takeOver (site : Site σ) (l : Life σ ν) : Life σ ν :=
  { l with node := l.node.lead site, errand := .leading }

def ask (link : Link ν) (target : Peer) (failing : Errand) (l : Life σ ν) : Life σ ν :=
  match Roster.join link l.node.delimiters l.node.members.me target l.net with
  | (.ok joined, net) => { node := l.node.follow joined, net, errand := .following }
  | (.error _, net) => { l with net, errand := failing }

def proceed (link : Link ν) (site : Site σ) (l : Life σ ν) : Life σ ν :=
  match l.errand with
  | .joining [] => l.takeOver site
  | .joining (seed :: seeds) => l.ask link seed (.joining seeds)
  | .seeking search =>
    match search.move l.node.members.me with
    | .takeOver => l.takeOver site
    | .ask candidate => l.ask link candidate (.seeking search.afterFailure)
    | .giveUp => { l with errand := .stopped }
  | .unstarted | .following | .leading | .stopped => l

def serve (link : Link ν) (site : Site σ) (conn : Connection)
    (received : Except Frame.HeaderError Frame.Request) (l : Life σ ν) : Life σ ν :=
  let here := (respond link site conn ⟨l.node, l.net⟩ received).2
  { l with node := here.node, net := here.net }

def hear (received : Except Frame.HeaderError Frame.Request) (l : Life σ ν) : Life σ ν :=
  if l.errand = .following then { l with node := l.node.hear received } else l

def loseLeader (l : Life σ ν) : Life σ ν :=
  if l.errand = .following then
    { l with
      node := l.node.seek
      errand := .seeking { candidates := l.node.members.view } }
  else l

def beat (l : Life σ ν) : Life σ ν :=
  if l.errand = .leading then { l with node := l.node.heartbeat.2 } else l

def loseSocket (socket : Socket) (l : Life σ ν) : Life σ ν :=
  if l.errand = .leading then
    { l with node := { l.node with members := l.node.members.removeActive socket } }
  else l

def stop (l : Life σ ν) : Life σ ν :=
  match l.errand with
  | .leading =>
    { l with
      node := { l.node with members := { l.node.members with active := [] } }
      errand := .stopped }
  | .following | .seeking _ => { l with errand := .stopped }
  | .unstarted | .joining _ | .stopped => l

def step (link : Link ν) (l : Life σ ν) : Happening σ ν → Life σ ν
  | .start p bound => l.start p bound
  | .proceed site => l.proceed link site
  | .request site conn received => l.serve link site conn received
  | .hear received => l.hear received
  | .loseLeader => l.loseLeader
  | .beat => l.beat
  | .loseSocket socket => l.loseSocket socket
  | .stop => l.stop
  | .elsewhere net => { l with net }

def run (link : Link ν) (l : Life σ ν) (happenings : List (Happening σ ν)) : Life σ ν :=
  happenings.foldl (step link) l

theorem run_append (link : Link ν) (l : Life σ ν) (happenings more : List (Happening σ ν)) :
    l.run link (happenings ++ more) = (l.run link happenings).run link more := List.foldl_append

/-! The parts of a life that nothing comes between are what a node does in one go. -/

theorem run_requests (link : Link ν) (site : Site σ) (conn : Connection)
    (received : List (Except Frame.HeaderError Frame.Request)) (l : Life σ ν) :
    let here := (respondAll link site conn received ⟨l.node, l.net⟩).2
    l.run link (received.map (.request site conn)) =
      { l with node := here.node, net := here.net } := by
  induction received generalizing l with
  | nil => rfl
  | cons first received ih => exact ih (l.serve link site conn first)

theorem run_hear (link : Link ν) (received : List (Except Frame.HeaderError Frame.Request))
    {l : Life σ ν} (h : l.errand = .following) :
    l.run link (received.map .hear) = { l with node := received.foldl Node.hear l.node } := by
  induction received generalizing l with
  | nil => rfl
  | cons first received ih =>
    show (l.hear first).run link (received.map .hear) = _
    rw [Life.hear, if_pos h]
    exact ih h

def become (site : Site σ) (net : ν) (l : Life σ ν) : Option Roster.Succession → Life σ ν
  | none => { l with net, errand := .stopped }
  | some .lead => { node := l.node.lead site, net, errand := .leading }
  | some (.follow joined) => { node := l.node.follow joined, net, errand := .following }

theorem run_proceed_succ (link : Link ν) (site : Site σ) (l : Life σ ν) (n : Nat) :
    l.run link (List.replicate (n + 1) (.proceed site)) =
      (l.proceed link site).run link (List.replicate n (.proceed site)) := rfl

theorem run_proceed_become (link : Link ν) (site : Site σ) (net : ν) (l : Life σ ν)
    (found : Option Roster.Succession) (n : Nat) :
    (l.become site net found).run link (List.replicate n (.proceed site)) =
      l.become site net found := by
  have hidle : (l.become site net found).proceed link site = l.become site net found := by
    rcases found with _ | _ | joined <;> rfl
  induction n with
  | zero => rfl
  | succ n ih =>
    rw [run_proceed_succ, hidle, ih]

theorem run_joining (link : Link ν) (site : Site σ) {l : Life σ ν} {seeds : List Peer}
    (h : l.errand = .joining seeds) {n : Nat} (hn : seeds.length < n) :
    let found := Roster.joinFirst link l.node.delimiters l.node.members.me seeds l.net
    l.run link (List.replicate n (.proceed site)) =
      l.become site found.2 (some ((found.1.map .follow).getD .lead)) := by
  induction seeds generalizing l n with
  | nil =>
    obtain ⟨n, rfl⟩ := Nat.exists_eq_add_of_lt hn
    have hmove : l.proceed link site = l.become site l.net (some .lead) := by
      simp only [proceed, h]
      rfl
    rw [run_proceed_succ, hmove, run_proceed_become]
    rfl
  | cons seed seeds ih =>
    cases n with
    | zero => omega
    | succ n =>
      have hmove : l.proceed link site = l.ask link seed (.joining seeds) := by
        simp only [proceed, h]
      rw [run_proceed_succ, hmove, ask, Roster.joinFirst]
      rcases Roster.join link l.node.delimiters l.node.members.me seed l.net with ⟨_ | joined, net⟩
      · exact ih (l := { l with net, errand := .joining seeds }) rfl (Nat.lt_of_succ_lt_succ hn)
      · exact run_proceed_become link site net l (some (.follow joined)) n

theorem run_start (link : Link ν) (site : Site σ) (p : Parameters) (bound : Net.Endpoint)
    (node : Node σ) (net : ν) {n : Nat} (hn : p.seeds.length < n) :
    let started := Node.start link site p bound node net
    run link ⟨node, net, .unstarted⟩ (.start p bound :: List.replicate n (.proceed site)) =
      { node := started.2.1
        net := started.2.2
        errand := if started.1.isSome then .following else .leading } := by
  intro started
  let me := Roster.initialIdentity p.advertise bound
  let named : Node σ :=
    { node with members := { node.members with me, role := .attemptingJoin } }
  let others := p.seeds.filter fun seed => !Roster.isSelf seed me bound
  show (start p bound ⟨node, net, .unstarted⟩).run link (List.replicate n (.proceed site)) = _
  cases halone : p.assumeLeader || p.seeds.isEmpty with
  | true =>
    have hstart : start p bound ⟨node, net, .unstarted⟩ = ⟨named, net, .joining []⟩ := by
      rcases Bool.or_eq_true_iff.1 halone with h | h
      · simp [start, h, named, me]
      · simp [start, List.isEmpty_iff.1 h, named, me]
    rw [hstart, run_joining link site rfl (Nat.zero_lt_of_lt hn)]
    simp only [started, Node.start, halone, if_true]
    rfl
  | false =>
    obtain ⟨hassume, -⟩ := Bool.or_eq_false_iff.1 halone
    have hstart : start p bound ⟨node, net, .unstarted⟩ = ⟨named, net, .joining others⟩ := by
      simp [start, hassume, named, me, others]
    have hothers : others.length < n := Nat.lt_of_le_of_lt (List.length_filter_le ..) hn
    rw [hstart, run_joining link site rfl hothers]
    simp only [started, Node.start, halone, Bool.false_eq_true, if_false]
    rcases Roster.joinFirst link named.delimiters me others net with ⟨_ | joined, net'⟩
    · rfl
    · rfl

theorem run_seeking (link : Link ν) (site : Site σ) {l : Life σ ν} {search : Search}
    (h : l.errand = .seeking search) {n : Nat} (hn : search.budget < n) :
    let found :=
      Roster.findSuccessor link l.node.delimiters l.node.members.me search l.net
    l.run link (List.replicate n (.proceed site)) = l.become site found.2 found.1 := by
  intro found
  obtain ⟨node, net, errand⟩ := l
  obtain rfl : errand = .seeking search := h
  simp only [found]
  fun_induction Roster.findSuccessor link node.delimiters node.members.me search net
    generalizing n with
  | case1 search net hnone =>
    obtain ⟨n, rfl⟩ := Nat.exists_eq_add_of_lt hn
    have hmove : proceed link site ⟨node, net, .seeking search⟩ =
        become site net ⟨node, net, .seeking search⟩ none := by
      simp only [proceed, Search.move, hnone]
      rfl
    rw [run_proceed_succ, hmove, run_proceed_become]
  | case2 search net rest hcandidates =>
    obtain ⟨n, rfl⟩ := Nat.exists_eq_add_of_lt hn
    have hmove : proceed link site ⟨node, net, .seeking search⟩ =
        become site net ⟨node, net, .seeking search⟩ (some .lead) := by
      simp only [proceed, Search.move, hcandidates, if_true]
      rfl
    rw [run_proceed_succ, hmove, run_proceed_become]
  | case3 search net candidate rest hcandidates hne joined net' hjoin =>
    obtain ⟨n, rfl⟩ := Nat.exists_eq_add_of_lt hn
    have hmove : proceed link site ⟨node, net, .seeking search⟩ =
        become site net' ⟨node, net, .seeking search⟩ (some (.follow joined)) := by
      simp only [proceed, Search.move, hcandidates, if_neg hne, ask, hjoin]
      rfl
    rw [run_proceed_succ, hmove, run_proceed_become]
  | case4 search net candidate rest hcandidates hne error net' hjoin hless ih =>
    cases n with
    | zero => omega
    | succ n =>
      have hmove : proceed link site ⟨node, net, .seeking search⟩ =
          ⟨node, net', .seeking search.afterFailure⟩ := by
        simp only [proceed, Search.move, hcandidates, if_neg hne, ask, hjoin]
      rw [run_proceed_succ, hmove]
      exact ih (by omega)

def Fits (l : Life σ ν) : Prop := l.errand.Fits l.node.members.role

structure Leads (l later : Life σ ν) : Prop where
  settings : later.node.settings = l.node.settings
  members : l.node.members.Becomes l.node.delimiters later.node.members
  fits : later.Fits

namespace Fits

variable {l : Life σ ν}

theorem role (h : l.Fits) {errand : Errand} (herrand : l.errand = errand) :
    errand.Fits l.node.members.role := herrand ▸ h

theorem stay (h : l.Fits) : l.Leads l := ⟨rfl, .same, h⟩

theorem not_leader (h : l.Fits) (herrand : l.errand = .following) :
    l.node.members.role ≠ .leader := by
  obtain ⟨leader, hrole⟩ := h.role herrand
  simp [hrole]

theorem start (h : l.Fits) (p : Parameters) (bound : Net.Endpoint) : l.Leads (l.start p bound) := by
  cases herrand : l.errand with
  | unstarted =>
    have hrole : l.node.members.role = .unstarted := h.role herrand
    simp only [Life.start, herrand]
    exact ⟨rfl, .await (by simp [hrole]) _, rfl⟩
  | _ => simpa only [Life.start, herrand] using h.stay

theorem takeOver (l : Life σ ν) (site : Site σ) : l.Leads (l.takeOver site) := ⟨rfl, .lead, rfl⟩

theorem ask (hrole : l.node.members.role = .attemptingJoin) (target : Peer)
    {failing : Errand} (hfailing : failing.Fits .attemptingJoin) :
    l.Leads (l.ask link target failing) := by
  unfold Life.ask
  split
  · next joined net _ =>
    have hidle : l.node.members.role ≠ .leader := by simp [hrole]
    refine ⟨rfl, .follow hidle joined.leader joined.you joined.members, joined.leader, ?_⟩
    show (l.node.members.follow joined.leader joined.you joined.members).role = _
    rw [Roster.follow_eq]
  · refine ⟨rfl, .same, ?_⟩
    rw [Life.Fits, hrole]
    exact hfailing

theorem proceed (h : l.Fits) (link : Link ν) (site : Site σ) : l.Leads (l.proceed link site) := by
  unfold Life.proceed
  cases herrand : l.errand with
  | joining seeds =>
    cases seeds with
    | nil => exact takeOver l site
    | cons seed seeds => exact ask (h.role herrand) seed rfl
  | seeking search =>
    simp only
    cases search.move l.node.members.me with
    | takeOver => exact takeOver l site
    | ask candidate => exact ask (h.role herrand) candidate rfl
    | giveUp => exact ⟨rfl, .same, trivial⟩
  | _ => exact h.stay

theorem serve (h : l.Fits) (link : Link ν) (site : Site σ) (conn : Connection)
    (received : Except Frame.HeaderError Frame.Request) :
    l.Leads (l.serve link site conn received) := by
  obtain ⟨hsettings, hrole, hbecomes⟩ := respond_becomes link site conn ⟨l.node, l.net⟩ received
  refine ⟨hsettings, hbecomes, ?_⟩
  simp only [Life.Fits, Life.serve, hrole]
  exact h

theorem hear (h : l.Fits) (received : Except Frame.HeaderError Frame.Request) :
    l.Leads (l.hear received) := by
  unfold Life.hear
  split
  · next herrand =>
    obtain ⟨hsettings, hrole, hbecomes⟩ := hear_becomes received (h.not_leader herrand)
    refine ⟨hsettings, hbecomes, ?_⟩
    simp only [Life.Fits, hrole]
    exact h
  · exact h.stay

theorem loseLeader (h : l.Fits) : l.Leads l.loseLeader := by
  unfold Life.loseLeader
  split
  · next herrand => exact ⟨rfl, .await (h.not_leader herrand) _, rfl⟩
  · exact h.stay

theorem beat (h : l.Fits) : l.Leads l.beat := by
  unfold Life.beat
  split
  · exact ⟨rfl, .tell, h⟩
  · exact h.stay

theorem loseSocket (h : l.Fits) (socket : Socket) : l.Leads (l.loseSocket socket) := by
  unfold Life.loseSocket
  split
  · next herrand =>
    refine ⟨rfl, .drop (h.role herrand) socket, ?_⟩
    show l.errand.Fits (l.node.members.removeActive socket).role
    rw [(l.node.members.removeActive_rest socket).1]
    exact h
  · exact h.stay

theorem stop (h : l.Fits) : l.Leads l.stop := by
  unfold Life.stop
  cases herrand : l.errand with
  | leading => exact ⟨rfl, .letGo, trivial⟩
  | following => exact ⟨rfl, .same, trivial⟩
  | seeking search => exact ⟨rfl, .same, trivial⟩
  | _ => exact h.stay

theorem step (h : l.Fits) (link : Link ν) (happening : Happening σ ν) :
    l.Leads (l.step link happening) := by
  cases happening with
  | start p bound => exact h.start p bound
  | proceed site => exact h.proceed link site
  | request site conn received => exact h.serve link site conn received
  | hear received => exact h.hear received
  | loseLeader => exact h.loseLeader
  | beat => exact h.beat
  | loseSocket socket => exact h.loseSocket socket
  | stop => exact h.stop
  | elsewhere net => exact ⟨rfl, .same, h⟩

theorem run_keeps {holds : Life σ ν → Prop} (h : l.Fits)
    (hstep : ∀ {l later : Life σ ν}, l.Leads later → holds l → holds later) (hl : holds l)
    (link : Link ν) (happenings : List (Happening σ ν)) :
    (l.run link happenings).Fits ∧ holds (l.run link happenings) := by
  induction happenings generalizing l with
  | nil => exact ⟨h, hl⟩
  | cons happening happenings ih =>
    have hleads := h.step link happening
    exact ih hleads.fits (hstep hleads hl)

/-- What a node does in one go leaves its lists as its role calls for, for it is a stretch of its
life. -/
theorem coherent_in_one_go (h : l.Fits) (hlists : l.node.members.Coherent) (link : Link ν)
    (site : Site σ) :
    (∀ conn received,
      (respondAll link site conn received ⟨l.node, l.net⟩).2.node.members.Coherent) ∧
    (l.errand = .following → ∀ bytes, (l.node.listen bytes).members.Coherent) ∧
    (l.errand = .unstarted → ∀ p bound,
      (Node.start link site p bound l.node l.net).2.1.members.Coherent) ∧
    ∀ search, l.errand = .seeking search →
      let found := Roster.findSuccessor link l.node.delimiters l.node.members.me search l.net
      (l.become site found.2 found.1).node.members.Coherent := by
  have hrun : ∀ happenings, (l.run link happenings).node.members.Coherent := fun happenings =>
    (h.run_keeps (fun hleads => hleads.members.coherent) hlists link happenings).2
  refine ⟨fun conn received => ?_, fun hfollowing bytes => ?_, fun hunstarted p bound => ?_,
    fun search hseeking => ?_⟩
  · have hserved := hrun (received.map (.request site conn))
    rwa [run_requests] at hserved
  · have hheard := hrun ((Frame.readRequests l.node.delimiters bytes).map .hear)
    rwa [run_hear link _ hfollowing] at hheard
  · have hstarted := hrun (.start p bound :: List.replicate (p.seeds.length + 1) (.proceed site))
    obtain ⟨node, net, errand⟩ := l
    obtain rfl : errand = .unstarted := hunstarted
    rwa [run_start link site p bound node net (Nat.lt_succ_self _)] at hstarted
  · have hsought := hrun (List.replicate (search.budget + 1) (.proceed site))
    rwa [run_seeking link site hseeking (Nat.lt_succ_self _)] at hsought

end Fits

theorem fits_fresh (settings : Coordinator.Settings) (desk : Coordinator.State σ) (net : ν) :
    (fresh settings desk net).Fits := rfl

/-- Whatever happens to a node, and however the network behaves: it has followers and changes to
tell only while it leads, a view only while it does not, and nobody is in a list twice. Once it
leads it does so for good. It lists those its role lets it know, itself among them, each once and
its leader first. -/
theorem lists_fit_role (link : Link ν) (settings : Coordinator.Settings)
    (desk : Coordinator.State σ) (net : ν) (happenings more : List (Happening σ ν)) :
    let now := ((fresh settings desk net).run link happenings).node.members
    let later := ((fresh settings desk net).run link (happenings ++ more)).node.members
    (now.role ≠ .leader → now.active = [] ∧ now.pending = []) ∧
      (now.role = .leader → now.view = [] ∧ later.role = .leader) ∧
      now.view.Nodup ∧ (now.active.map (·.peer)).Nodup ∧
      now.currentPeers.Nodup ∧ now.me ∈ now.currentPeers ∧
      (∀ peer, peer ∈ now.currentPeers ↔ now.Knows peer) ∧
      ∀ leader, now.leader? = some leader → now.currentPeers.head? = some leader := by
  intro now later
  obtain ⟨hfits, hlists⟩ := (fits_fresh settings desk net).run_keeps
    (fun hleads => hleads.members.coherent) Roster.State.coherent_empty link happenings
  refine ⟨hlists.idle, ?_, hlists.view, hlists.followers, Roster.nodup_currentPeers now,
    Roster.me_mem_currentPeers now, fun peer => Roster.State.mem_currentPeers,
    fun leader => Roster.State.head_currentPeers⟩
  intro hlead
  refine ⟨hlists.leads hlead, ?_⟩
  show ((fresh settings desk net).run link (happenings ++ more)).node.members.role = .leader
  rw [run_append]
  exact (hfits.run_keeps (fun hleads => hleads.members.still_leads) hlead link more).2

def quietSite : Site Store := { backend := Store.backend, retry := {}, now := 0 }

def joinOf (me : Peer) (socket : Socket) : Happening Store Unit :=
  .request quietSite { remote := { ip := Net.Ip.loopback, port := 4000 }, socket }
    (.ok ⟨Frame.RequestKind.join.code, me.label, Text.encode (me.encode {})⟩)

def rejoining : List (Happening Store Unit) :=
  [.start { advertise := some "z" } { ip := Net.Ip.loopback, port := 7000 },
    .proceed quietSite, joinOf ⟨"x", 1⟩ ⟨"a"⟩, joinOf ⟨"y", 2⟩ ⟨"b"⟩, .beat,
    joinOf ⟨"x", 1⟩ ⟨"c"⟩]

def rejoined (more : List (Happening Store Unit)) : Life Store Unit :=
  (fresh {} { store := {} } ()).run Link.nobody (rejoining ++ more)

theorem lists_fit_role_rejoined :
    let members := (rejoined []).node.members
    members.active = [⟨⟨"x", 1⟩, ⟨"c"⟩⟩, ⟨⟨"y", 2⟩, ⟨"b"⟩⟩] ∧
      members.pending = [.added ⟨"x", 1⟩] ∧
      members.currentPeers = [⟨"z", 7000⟩, ⟨"x", 1⟩, ⟨"y", 2⟩] ∧
      members.view = [] ∧ (rejoined [.loseLeader, .stop]).node.members.role = .leader := by
  have hrole : (rejoined []).node.members.role = .leader := by decide +kernel
  have hlists := lists_fit_role Link.nobody {} { store := ({} : Store) } () (rejoining ++ [])
    [.loseLeader, .stop]
  obtain ⟨hview, hlater⟩ := hlists.2.1 hrole
  exact ⟨by decide +kernel, by decide +kernel, by decide +kernel, hview, hlater⟩

end Life

end Node
end CrawlCluster
