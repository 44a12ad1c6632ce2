import CrawlCluster.Proofs.Network.Searching
import CrawlCluster.Proofs.Node.Asking
import CrawlCluster.Proofs.Roster.Agreement
import Mathlib.Data.List.Find

/-!
What those who lost their leader are about, one turn after another. Until the first member that is
up has let a follower in, that follower has nobody else to turn to. Main statement: `Ordered.step`,
that this stays so with every turn but one at which a follower gives the first up.
-/

set_option autoImplicit false

namespace CrawlCluster

theorem Roster.Search.afterFailure_subset (search : Roster.Search) :
    search.afterFailure.candidates ⊆ search.candidates := by
  rw [Roster.Search.afterFailure]
  split
  · exact List.Subset.refl _
  · exact search.candidates.tail_sublist.subset

namespace Takeover

open Roster (JoinAnswer Joined Named Search joinRequest maxDials readAnswer)

variable {σ : Type}

/-- A leader that is lost: who followed it, who of them is up, and the first that is. -/
structure Loss where
  delimiters : Delimiters
  old : Peer
  view : List Peer
  up : Peer → Bool
  first : Peer

/-- Nobody is listed twice, and nothing but the role of the one who is asked decides about a join:
everybody can be named on the wire, and the whole list can be told. -/
structure Loss.Sound (l : Loss) : Prop where
  framing : l.delimiters.Framing
  tag : l.delimiters.fieldChar ∉ JoinAnswer.acceptedTag.toList
  old_named : Named l.delimiters l.old
  named : ∀ p ∈ l.view, Named l.delimiters p
  small : (Text.encode (l.delimiters.joinFields
    (JoinAnswer.acceptedTag :: l.view.flatMap Peer.fields))).length < UInt64.size
  nodup : l.view.Nodup
  gone : l.up l.old = false
  within : ∀ p, l.up p = true → p ∈ l.view
  found : l.view.find? l.up = some l.first

structure Loss.Left (l : Loss) (p : Peer) (party : Party σ) : Prop where
  stage : party.stage = .follows
  delimiters : party.node.delimiters = l.delimiters
  me : party.node.members.me = p
  role : party.node.members.role = .follower l.old
  view : party.node.members.view = l.view
  active : party.node.members.active = []

namespace Stage

def Stray (first : Peer) : Stage → Prop
  | chooses search | dials search _ _ => first ∉ search.candidates
  | follows | joined _ | settled | failed => False

def Ended : Stage → Prop
  | joined _ | settled | failed => True
  | follows | chooses _ | dials _ _ _ => False

theorem Ended.goes {stage later : Stage} (h : stage.Ended) (hgoes : stage.Goes later) :
    later.Ended := by
  cases hgoes with
  | stays => exact h
  | looks | turns | leads | despairs | fails | wanders | joins => exact h.elim
  | follows => trivial

theorem Stray.not_ended {first : Peer} {stage : Stage} (h : stage.Stray first) :
    ¬ stage.Ended := by
  cases stage with
  | chooses | dials => exact id
  | follows | joined | settled | failed => exact h.elim

theorem past_goes {first : Peer} {stage later : Stage} (h : stage.Ended ∨ stage.Stray first)
    (hgoes : stage.Goes later) : later.Ended ∨ later.Stray first := by
  rcases h with h | h
  · exact .inl (h.goes hgoes)
  · cases hgoes with
    | stays => exact .inr h
    | looks | follows => exact h.elim
    | turns | wanders => exact .inr h
    | leads | despairs | joins => exact .inl trivial
    | fails search => exact .inr fun hmem => h (search.afterFailure_subset hmem)

end Stage

namespace Loss

def Ahead (l : Loss) (search : Search) : Prop :=
  ∃ front after, search.candidates = front ++ l.first :: after ∧
    (∀ p ∈ front, l.up p = false) ∧ l.first ∉ after

/-- What a node is about, and the role it has meanwhile. -/
inductive Minds (l : Loss) (led : Prop) (p : Peer) (members : Roster.State) : Stage → Prop where
  | follows (hrole : members.role = .follower l.old) (hview : members.view = l.view) :
      Minds l led p members .follows
  | chooses {search : Search} (hrole : members.role = .attemptingJoin) (hahead : l.Ahead search) :
      Minds l led p members (.chooses search)
  /-- Whoever is dialled is not up. -/
  | dials {search : Search} {left : Nat} {target : Peer} (hrole : members.role = .attemptingJoin)
      (hahead : l.Ahead search) (hp : p = l.first → search.candidates.head? ≠ some l.first)
      (htarget : l.up target = false) : Minds l led p members (.dials search left target)
  | asks {search : Search} {left : Nat} (hrole : members.role = .attemptingJoin)
      (hahead : l.Ahead search) (hp : p ≠ l.first) :
      Minds l led p members (.dials search left l.first)
  | joined {joined : Joined} (hrole : members.role = .attemptingJoin) (hp : p ≠ l.first)
      (hled : led) (hleader : joined.leader = l.first) (hyou : joined.you = p) :
      Minds l led p members (.joined joined)
  | leads (hrole : members.role = .leader) (hp : p = l.first) : Minds l led p members .settled
  | served (hrole : members.role = .follower l.first) (hp : p ≠ l.first) (hled : led) :
      Minds l led p members .settled

structure Keeps (l : Loss) (led : Prop) (p : Peer) (party : Party σ) : Prop where
  delimiters : party.node.delimiters = l.delimiters
  me : party.node.members.me = p
  nodup : party.node.members.followers.Nodup
  within : party.node.members.followers ⊆ l.view
  minds : l.Minds led p party.node.members party.stage

end Loss

def Crowd.role? (c : Crowd σ) (p : Peer) : Option Roster.Role := (c p).map (·.node.members.role)

abbrev Crowd.Leads (c : Crowd σ) (p : Peer) : Prop := c.role? p = some .leader

theorem Crowd.leads_iff {c : Crowd σ} {p : Peer} {party : Party σ} (hparty : c p = some party) :
    c.Leads p ↔ party.node.members.role = .leader := by
  rw [Crowd.Leads, Crowd.role?, hparty, Option.map_some, Option.some.injEq]

/-- Everybody that was up still is, and does what it should. -/
structure Loss.Ordered (l : Loss) (c : Crowd σ) : Prop where
  up : ∀ p, (c p).isSome = l.up p
  keeps : ∀ p party, c p = some party → l.Keeps (c.Leads l.first) p party

theorem Turn.exchange_join {c : Crowd σ} {turn : Turn σ} {d : Delimiters} {me target : Peer}
    {party : Party σ} (hd : d.Framing) (hme : Named d me) (hparty : c target = some party)
    (hnode : party.node.delimiters = d) :
    turn.link.exchange target (joinRequest d me) c =
      (.bytes ((party.node.welcome turn.conn d me).1.encode d) false,
        c.put target { party with node := (party.node.welcome turn.conn d me).2 }) := by
  simp only [Turn.link, hparty]
  rw [Node.serve_join hd hnode hme.fits]

namespace Loss

variable {l : Loss} {c : Crowd σ} {turn : Turn σ} {p : Peer} {party : Party σ} {node : Node σ}
variable {stage : Stage} {search : Search} {left : Nat}

theorem Sound.first_up (h : l.Sound) : l.up l.first = true := List.find?_some h.found

theorem Sound.ahead (h : l.Sound) : l.Ahead { candidates := l.view } := by
  obtain ⟨-, front, after, hview, hfront⟩ := List.find?_eq_some_iff_append.1 h.found
  refine ⟨front, after, hview, by simpa using hfront, ?_⟩
  have hnodup := h.nodup
  rw [hview] at hnodup
  exact (List.nodup_cons.1 (List.nodup_append.1 hnodup).2.1).1

theorem Ahead.afterFailure (h : l.Ahead search)
    (hkept : search.candidates.head? ≠ some l.first ∨ l.first ∈ search.afterFailure.candidates) :
    l.Ahead search.afterFailure := by
  obtain ⟨front, after, hcandidates, hfront, hafter⟩ := h
  rw [Search.afterFailure] at hkept ⊢
  split
  · exact ⟨front, after, hcandidates, hfront, hafter⟩
  · next hlast =>
    rw [if_neg hlast] at hkept
    cases front with
    | nil =>
      rw [hcandidates] at hkept
      exact absurd hkept (by simpa using hafter)
    | cons q front =>
      refine ⟨front, after, ?_, fun p hp => hfront p (List.mem_cons_of_mem q hp), hafter⟩
      simp [hcandidates]

theorem Minds.keep {led later : Prop} {members after : Roster.State}
    (h : l.Minds led p members stage) (hled : led → later) (hrole : after.role = members.role)
    (hview : after.view = members.view) : l.Minds later p after stage := by
  cases h with
  | follows hr hv => exact .follows (hrole.trans hr) (hview.trans hv)
  | chooses hr hahead => exact .chooses (hrole.trans hr) hahead
  | dials hr hahead hp htarget => exact .dials (hrole.trans hr) hahead hp htarget
  | asks hr hahead hp => exact .asks (hrole.trans hr) hahead hp
  | joined hr hp h hleader hyou => exact .joined (hrole.trans hr) hp (hled h) hleader hyou
  | leads hr hp => exact .leads (hrole.trans hr) hp
  | served hr hp h => exact .served (hrole.trans hr) hp (hled h)

theorem Keeps.mono {led later : Prop} (h : l.Keeps led p party) (hled : led → later) :
    l.Keeps later p party :=
  { h with minds := h.minds.keep hled rfl rfl }

theorem Ordered.put (h : l.Ordered c) (hup : l.up p = true)
    (hkeeps : l.Keeps (c.Leads l.first) p party)
    (hstill : c.Leads p → party.node.members.role = .leader) : l.Ordered (c.put p party) := by
  have hled : c.Leads l.first → (c.put p party).Leads l.first := by
    intro hlead
    by_cases hp : l.first = p
    · subst hp
      exact (Crowd.leads_iff (Crowd.put_self ..)).2 (hstill hlead)
    · rw [Crowd.Leads, Crowd.role?, Crowd.put_of_ne hp]
      exact hlead
  refine ⟨fun q => ?_, fun q other hq => ?_⟩
  · by_cases hq : q = p
    · subst hq
      rw [Crowd.put_self, hup]
      rfl
    · rw [Crowd.put_of_ne hq, h.up]
  · by_cases he : q = p
    · subst he
      rw [Crowd.put_self] at hq
      obtain rfl := Option.some.inj hq
      exact hkeeps.mono hled
    · rw [Crowd.put_of_ne he] at hq
      exact (h.keeps q other hq).mono hled

theorem Ordered.up_of (h : l.Ordered c) (hparty : c p = some party) : l.up p = true := by
  rw [← h.up, hparty]
  rfl

theorem Keeps.retry {led : Prop} (h : l.Keeps led p ⟨node, stage⟩)
    (hrole : node.members.role = .attemptingJoin) (hahead : l.Ahead search)
    (hkept : search.candidates.head? ≠ some l.first ∨ l.first ∈ search.afterFailure.candidates) :
    l.Keeps led p ⟨node, .chooses search.afterFailure⟩ :=
  { h with minds := .chooses hrole (hahead.afterFailure hkept) }

theorem Ordered.put_same (hc : l.Ordered c) (hparty : c p = some ⟨node, stage⟩) {later : Stage}
    (hkeeps : l.Keeps (c.Leads l.first) p ⟨node, later⟩) : l.Ordered (c.put p ⟨node, later⟩) := by
  exact hc.put (hc.up_of hparty) hkeeps (Crowd.leads_iff hparty).1

theorem Keeps.answer_fits {led : Prop} (hl : l.Sound) (h : l.Keeps led p ⟨node, stage⟩) {me : Peer}
    (hme : me ∈ l.view) :
    (Text.encode ((JoinAnswer.accepted me
      (node.members.followers.filter (· ≠ me))).encode l.delimiters)).length < UInt64.size := by
  refine lt_of_le_of_lt (JoinAnswer.length_encode_accepted_le ?_ ?_) hl.small
  · exact List.nodup_cons.2 ⟨by simp, h.nodup.filter _⟩
  · refine List.cons_subset.2 ⟨hme, fun q hq => h.within (List.mem_filter.1 hq).1⟩

theorem Keeps.addActive {led : Prop} (h : l.Keeps led p ⟨node, stage⟩) {me : Peer}
    (hme : me ∈ l.view) (socket : Roster.Socket) :
    l.Keeps led p ⟨{ node.asked me with members := node.members.addActive me socket }, stage⟩ where
  delimiters := h.delimiters
  me := h.me
  nodup := Roster.State.nodup_addActive me socket h.nodup
  within := by
    rw [Roster.State.followers_addActive]
    split
    · exact h.within
    · exact List.append_subset.2 ⟨h.within, by simpa using hme⟩
  minds := h.minds.keep id rfl rfl

theorem Minds.role_first {led : Prop} {members : Roster.State}
    (h : l.Minds led l.first members stage) : members.role = .follower l.old ∨
      members.role = .attemptingJoin ∨ members.role = .leader := by
  cases h with
  | follows hrole => exact .inl hrole
  | chooses hrole => exact .inr (.inl hrole)
  | dials hrole => exact .inr (.inl hrole)
  | asks _ _ hp => exact absurd rfl hp
  | joined _ hp => exact absurd rfl hp
  | leads hrole => exact .inr (.inr hrole)
  | served _ hp => exact absurd rfl hp

/-- What comes of asking the first, which lets in whoever asks just when it leads. -/
theorem Ordered.ask_first (hl : l.Sound) (hc : l.Ordered c) {me : Peer} (hme : me ∈ l.view)
    (turn : Turn σ) : ∃ reply leader,
      turn.link.exchange l.first (joinRequest l.delimiters me) c = (reply, c.put l.first leader) ∧
      l.Keeps (c.Leads l.first) l.first leader ∧
      (c.Leads l.first → leader.node.members.role = .leader) ∧
      ((c.Leads l.first ∧ ∃ members,
          readAnswer l.delimiters reply = .ok (.accepted me members, [])) ∨
        ¬ c.Leads l.first ∧ ((∃ error, readAnswer l.delimiters reply = .error error) ∨
          readAnswer l.delimiters reply = .ok (.redirect l.old, []))) := by
  have hup : (c l.first).isSome = true := (hc.up l.first).trans hl.first_up
  obtain ⟨⟨node, stage⟩, hfirst⟩ := Option.isSome_iff_exists.1 hup
  have hkeeps := hc.keeps _ _ hfirst
  have hnode : node.delimiters = l.delimiters := hkeeps.delimiters
  have hnamed := hl.named me hme
  rw [Turn.exchange_join hl.framing hnamed hfirst hnode]
  have hleads := Crowd.leads_iff hfirst
  have hasked : l.Keeps (c.Leads l.first) l.first ⟨node.asked me, stage⟩ :=
    { hkeeps with minds := hkeeps.minds.keep id rfl rfl }
  rcases hkeeps.minds.role_first with hrole | hrole | hrole
  · have hnot : ¬ c.Leads l.first := by
      rw [hleads, hrole]
      exact Roster.Role.noConfusion
    obtain ⟨hread, hleft⟩ := Node.welcome_follower turn.conn hl.framing hnode hnamed
      hl.old_named hrole false
    refine ⟨_, _, rfl, ?_, fun h => absurd h hnot, .inr ⟨hnot, ?_⟩⟩
    · rw [hleft]
      exact hasked
    · rw [hread]
      split
      · exact .inl ⟨_, rfl⟩
      · exact .inr rfl
  · have hnot : ¬ c.Leads l.first := by
      rw [hleads, hrole]
      exact Roster.Role.noConfusion
    obtain ⟨hread, hleft⟩ := Node.welcome_unready turn.conn hl.framing hnode hnamed
      (.inr hrole) false
    refine ⟨_, _, rfl, ?_, fun h => absurd h hnot, .inr ⟨hnot, .inl ⟨_, hread⟩⟩⟩
    rw [hleft]
    exact hasked
  · obtain ⟨hread, hleft⟩ := Node.welcome_leader turn.conn hl.framing hnode hnamed
      hl.tag hrole (fun p hp => (hl.named p (hkeeps.within hp)).plain) (hkeeps.answer_fits hl hme)
      false
    refine ⟨_, _, rfl, ?_, fun _ => ?_, .inl ⟨hleads.2 hrole, _, hread⟩⟩
    · rw [hleft]
      exact hkeeps.addActive hme turn.conn.socket
    · rw [hleft]
      exact hrole

theorem Ordered.dial_down (hc : l.Ordered c) {target : Peer}
    (hparty : c turn.who = some ⟨node, .dials search left target⟩)
    (htarget : l.up target = false) :
    c.proceed turn node (.dials search left target) =
      c.put turn.who ⟨node, .chooses search.afterFailure⟩ := by
  cases left with
  | zero => rfl
  | succ left =>
    have hnone : c target = none := by
      rw [← Option.not_isSome_iff_eq_none, hc.up, htarget]
      exact Bool.false_ne_true
    simp only [Crowd.proceed, Turn.link, hnone]
    exact Crowd.turnTo_eq_put hparty

theorem Ordered.follow (hc : l.Ordered c) {joined : Joined}
    (hparty : c turn.who = some ⟨node, .joined joined⟩)
    (hrole : node.members.role = .attemptingJoin) (hp : turn.who ≠ l.first)
    (hled : c.Leads l.first) (hleader : joined.leader = l.first) (hyou : joined.you = turn.who) :
    l.Ordered (c.proceed turn node (.joined joined)) := by
  have hkeeps := hc.keeps _ _ hparty
  have hnode : node.delimiters = l.delimiters := hkeeps.delimiters
  have hmembers : (node.follow joined).members = _ :=
    Roster.follow_eq joined.leader joined.you joined.members node.members
  refine hc.put (hc.up_of hparty) ⟨hnode, ?_, ?_, ?_, ?_⟩ fun hlead => ?_
  · rw [hmembers]
    exact hyou
  · rw [hmembers]
    exact hkeeps.nodup
  · rw [hmembers]
    exact hkeeps.within
  · refine .served ?_ hp hled
    rw [hmembers, hleader]
  · rw [Crowd.leads_iff hparty, hrole] at hlead
    cases hlead

section Turns

variable (hl : l.Sound) (hc : l.Ordered c)
include hl hc

theorem Ordered.choose (hparty : c turn.who = some ⟨node, .chooses search⟩)
    (hrole : node.members.role = .attemptingJoin) (hahead : l.Ahead search) :
    l.Ordered (c.proceed turn node (.chooses search)) := by
  have hkeeps := hc.keeps _ _ hparty
  have hup := hc.up_of hparty
  have hme : node.members.me = turn.who := hkeeps.me
  have hcandidates := hahead
  obtain ⟨front, after, hcandidates, hfront, -⟩ := hcandidates
  rw [Crowd.proceed, hme, Search.move, hcandidates]
  cases front with
  | nil =>
    simp only [List.nil_append]
    by_cases hp : l.first = turn.who
    · rw [if_pos hp]
      exact hc.put hup { hkeeps with minds := .leads rfl hp.symm } fun _ => rfl
    · rw [if_neg hp]
      exact hc.put_same hparty { hkeeps with minds := .asks hrole hahead (Ne.symm hp) }
  | cons q front =>
    have hq : l.up q = false := hfront q List.mem_cons_self
    have hself : q ≠ turn.who := by
      rintro rfl
      exact absurd hup (by simp [hq])
    have hhead : search.candidates.head? ≠ some l.first := by
      rw [hcandidates]
      rintro ⟨rfl⟩
      exact absurd hl.first_up (by simp [hq])
    simp only [List.cons_append]
    rw [if_neg hself]
    exact hc.put_same hparty
      { hkeeps with minds := .dials hrole hahead (fun _ => hhead) hq }

theorem Ordered.dial_first (hparty : c turn.who = some ⟨node, .dials search (left + 1) l.first⟩)
    (hrole : node.members.role = .attemptingJoin) (hahead : l.Ahead search)
    (hp : turn.who ≠ l.first) : ∃ leader stage,
      c.proceed turn node (.dials search (left + 1) l.first) =
          (c.put l.first leader).put turn.who ⟨node, stage⟩ ∧
        l.Ordered (c.put l.first leader) ∧ (c.Leads l.first → stage.Ended) ∧
        (stage = .chooses search.afterFailure ∨
          l.Keeps ((c.put l.first leader).Leads l.first) turn.who ⟨node, stage⟩) := by
  have hkeeps := hc.keeps _ _ hparty
  have hup := hc.up_of hparty
  have hme : node.members.me = turn.who := hkeeps.me
  have hnode : node.delimiters = l.delimiters := hkeeps.delimiters
  obtain ⟨reply, leader, hcall, hleader, hstill, hanswer⟩ := hc.ask_first hl (hl.within _ hup) turn
  have hafter := hc.put hl.first_up hleader hstill
  have hother : c.put l.first leader turn.who = c turn.who := Crowd.put_of_ne hp
  have hparty' := hother.trans hparty
  refine ⟨leader, .heard turn.who search left l.first (readAnswer l.delimiters reply), ?_, hafter,
    ?_, ?_⟩
  · simp only [Crowd.proceed, hnode, hme, hcall]
    exact Crowd.turnTo_eq_put hparty'
  · intro hled
    rcases hanswer with ⟨-, members, hread⟩ | ⟨hnot, -⟩
    · rw [hread]
      trivial
    · exact absurd hled hnot
  · have hkeeps' := hafter.keeps _ _ hparty'
    rcases hanswer with ⟨hled, members, hread⟩ | ⟨-, ⟨error, hread⟩ | hread⟩
    · have hstill' : (c.put l.first leader).Leads l.first :=
        (Crowd.leads_iff (Crowd.put_self ..)).2 (hstill hled)
      rw [hread]
      exact .inr { hkeeps' with minds := .joined hrole hp hstill' rfl rfl }
    · rw [hread]
      exact .inl rfl
    · rw [hread, Stage.heard]
      split
      · exact .inl rfl
      · exact .inr { hkeeps' with minds := .dials hrole hahead (fun h => absurd h hp) hl.gone }

end Turns

/-- A turn leaves everybody in order, unless a follower gives up the first. -/
theorem Ordered.step (hl : l.Sound) (hc : l.Ordered c) (turn : Turn σ)
    (hkept : turn.who ≠ l.first → ∀ party, c.step turn turn.who = some party →
      ¬ party.stage.Stray l.first) : l.Ordered (c.step turn) := by
  cases hparty : c turn.who with
  | none =>
    rw [Crowd.step, hparty]
    exact hc
  | some party =>
    obtain ⟨node, stage⟩ := party
    have hkeeps := hc.keeps _ _ hparty
    have hup := hc.up_of hparty
    rw [Crowd.step_eq hparty] at hkept ⊢
    have hminds : l.Minds (c.Leads l.first) turn.who node.members stage := hkeeps.minds
    cases hminds with
    | follows hrole hview =>
      refine hc.put hup ?_ fun hlead => ?_
      · rw [hview]
        exact { hkeeps with minds := .chooses rfl hl.ahead }
      · rw [Crowd.leads_iff hparty, hrole] at hlead
        cases hlead
    | chooses hrole hahead => exact hc.choose hl hparty hrole hahead
    | dials hrole hahead hp htarget =>
      rw [hc.dial_down hparty htarget] at hkept ⊢
      refine hc.put_same hparty (hkeeps.retry hrole hahead ?_)
      by_cases hfirst : turn.who = l.first
      · exact .inl (hp hfirst)
      · exact .inr (not_not.1 (hkept hfirst _ (Crowd.put_self ..)))
    | @asks search left hrole hahead hp =>
      cases left with
      | zero =>
        refine hc.put_same hparty (hkeeps.retry hrole hahead (.inr ?_))
        exact not_not.1 (hkept hp _ (Crowd.put_self ..))
      | succ left =>
        obtain ⟨leader, stage, hstep, hafter, -, hstage⟩ := hc.dial_first hl hparty hrole hahead hp
        have hother : c.put l.first leader turn.who = c turn.who := Crowd.put_of_ne hp
        have hparty' := hother.trans hparty
        rw [hstep] at hkept ⊢
        refine hafter.put_same hparty' ?_
        rcases hstage with rfl | hkeeps'
        · refine (hafter.keeps _ _ hparty').retry hrole hahead (.inr ?_)
          exact not_not.1 (hkept hp _ (Crowd.put_self ..))
        · exact hkeeps'
    | joined hrole hp hled hleader hyou => exact hc.follow hparty hrole hp hled hleader hyou
    | leads hrole hp => exact hc
    | served hrole hp hled => exact hc

theorem Ordered.dial_led (hl : l.Sound) (hc : l.Ordered c) (hlead : c.Leads l.first)
    (hstage : c.stage? turn.who = some (.dials search (left + 1) l.first)) :
    ∃ later, (c.step turn).stage? turn.who = some later ∧ later.Ended := by
  obtain ⟨⟨node, stage⟩, hparty, rfl⟩ := Option.map_eq_some_iff.1 hstage
  have hminds : l.Minds (c.Leads l.first) turn.who node.members
      (.dials search (left + 1) l.first) := (hc.keeps _ _ hparty).minds
  cases hminds with
  | dials _ _ _ hdown => exact absurd hl.first_up (by simp [hdown])
  | asks hrole hahead hp =>
    obtain ⟨leader, later, hstep, -, hended, -⟩ := hc.dial_first hl hparty hrole hahead hp
    refine ⟨later, ?_, hended hlead⟩
    rw [Crowd.step_eq hparty, hstep]
    exact congrArg _ (Crowd.put_self ..)

end Loss

end Takeover
end CrawlCluster
