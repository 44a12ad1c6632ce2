import CrawlCluster.Node.Life
import CrawlCluster.Node.Serve
import Mathlib.Logic.Function.Basic

/-!
Followers that have lost their leader and look for another, all at once. Each goes on by itself, a
dial at a time, and any of them may go on next. Main statement: `findSuccessor_alone`, that one
that goes on alone does what the whole search does with nothing in between.
-/

set_option autoImplicit false

namespace CrawlCluster.Takeover

open Coordinator (Site)
open Roster (JoinAnswer JoinError Joined Search Succession findSuccessor joinFrom joinRequest
  maxDials readAnswer)

/-- How far a follower has come. -/
inductive Stage where
  /-- It has not noticed yet that its leader is gone. -/
  | follows
  /-- About to turn to the first of its candidates. -/
  | chooses (search : Search)
  /-- About to dial the candidate, or where it was sent from there, with so many dials left. -/
  | dials (search : Search) (left : Nat) (target : Peer)
  | joined (joined : Joined)
  | settled
  | failed
  deriving DecidableEq, Repr

structure Party (σ : Type) where
  node : Node σ
  stage : Stage := .follows

/-- The nodes that are up, each under the name the others know it by. -/
abbrev Crowd (σ : Type) := Peer → Option (Party σ)

/-- Who goes on next, and how it is heard if it dials. -/
structure Turn (σ : Type) where
  who : Peer
  site : Site σ
  conn : Connection

def Stage.heard (me : Peer) (search : Search) (left : Nat) (target : Peer) :
    Except JoinError (JoinAnswer × Bytes) → Stage
  | .error _ => .chooses search.afterFailure
  | .ok (.accepted you members, rest) => .joined { leader := target, you, members, rest }
  | .ok (.redirect leader, _) =>
    if leader = me then .chooses search.afterFailure else .dials search left leader

/-- Where a node can be after one turn. -/
inductive Stage.Goes : Stage → Stage → Prop where
  | stays (stage : Stage) : Goes stage stage
  | looks (search : Search) : Goes .follows (.chooses search)
  | turns (search : Search) (left : Nat) (target : Peer) :
      Goes (.chooses search) (.dials search left target)
  | leads (search : Search) : Goes (.chooses search) .settled
  | despairs (search : Search) : Goes (.chooses search) .failed
  | fails (search : Search) (left : Nat) (target : Peer) :
      Goes (.dials search left target) (.chooses search.afterFailure)
  | wanders (search : Search) (left fewer : Nat) (target other : Peer) :
      Goes (.dials search left target) (.dials search fewer other)
  | joins (search : Search) (left : Nat) (target : Peer) (joined : Joined) :
      Goes (.dials search left target) (.joined joined)
  | follows (joined : Joined) : Goes (.joined joined) .settled

theorem Stage.goes_heard (me : Peer) (search : Search) (left : Nat) (target : Peer)
    (answer : Except JoinError (JoinAnswer × Bytes)) :
    Goes (.dials search (left + 1) target) (heard me search left target answer) := by
  unfold heard
  split
  · exact .fails ..
  · exact .joins ..
  · split
    · exact .fails ..
    · exact .wanders ..

variable {σ : Type}

def Crowd.put (who : Peer) (party : Party σ) (c : Crowd σ) : Crowd σ :=
  Function.update c who (some party)

/-- Dialling among the nodes that are up. -/
def Turn.link (turn : Turn σ) : Link (Crowd σ) where
  exchange target frame c :=
    match c target with
    | none => (.refused, c)
    | some party =>
      let (sent, here) := Node.serve .nobody turn.site turn.conn frame ⟨party.node, ()⟩
      (.bytes sent false, c.put target { party with node := here.node })

namespace Crowd

def turnTo (who : Peer) (stage : Stage) (c : Crowd σ) : Crowd σ :=
  Function.update c who ((c who).map fun party => { party with stage })

def proceed (turn : Turn σ) (node : Node σ) (c : Crowd σ) : Stage → Crowd σ
  | .follows => c.put turn.who ⟨node.seek, .chooses { candidates := node.members.view }⟩
  | .chooses search =>
    match search.move node.members.me with
    | .takeOver => c.put turn.who ⟨node.lead turn.site, .settled⟩
    | .giveUp => c.put turn.who ⟨node, .failed⟩
    | .ask candidate => c.put turn.who ⟨node, .dials search maxDials candidate⟩
  | .dials search 0 _ => c.put turn.who ⟨node, .chooses search.afterFailure⟩
  | .dials search (left + 1) target =>
    let me := node.members.me
    let (reply, c) := turn.link.exchange target (joinRequest node.delimiters me) c
    c.turnTo turn.who (.heard me search left target (readAnswer node.delimiters reply))
  | .joined joined => c.put turn.who ⟨node.follow joined, .settled⟩
  | .settled => c
  | .failed => c

def step (c : Crowd σ) (turn : Turn σ) : Crowd σ :=
  match c turn.who with
  | none => c
  | some party => c.proceed turn party.node party.stage

def stage? (c : Crowd σ) (p : Peer) : Option Stage := (c p).map (·.stage)

def run (c : Crowd σ) (turns : List (Turn σ)) : Crowd σ := turns.foldl step c

variable {c after : Crowd σ} {turn : Turn σ} {who target : Peer} {node : Node σ}
variable {party : Party σ} {stage earlier : Stage}

theorem run_append (c : Crowd σ) (turns more : List (Turn σ)) :
    c.run (turns ++ more) = (c.run turns).run more := List.foldl_append

theorem step_eq (hparty : c turn.who = some ⟨node, stage⟩) :
    c.step turn = c.proceed turn node stage := by
  rw [step, hparty]

theorem turnTo_self (hparty : c who = some ⟨node, earlier⟩) :
    c.turnTo who stage who = some ⟨node, stage⟩ := by
  rw [turnTo, Function.update_self, hparty, Option.map_some]

theorem turnTo_eq_put (hparty : c who = some ⟨node, earlier⟩) :
    c.turnTo who stage = c.put who ⟨node, stage⟩ := by
  rw [turnTo, put, hparty, Option.map_some]

theorem put_turnTo (c : Crowd σ) (who : Peer) (stage : Stage) (party : Party σ) :
    (c.turnTo who stage).put who party = c.put who party := Function.update_idem ..

theorem turnTo_turnTo (c : Crowd σ) (who : Peer) (stage later : Stage) :
    (c.turnTo who stage).turnTo who later = c.turnTo who later := by
  simp only [turnTo, Function.update_self, Function.update_idem, Option.map_map]
  rfl

theorem put_self (c : Crowd σ) (who : Peer) (party : Party σ) : c.put who party who = some party :=
  Function.update_self ..

theorem put_of_ne (h : target ≠ who) : c.put who party target = c target :=
  Function.update_of_ne h _ _

theorem turnTo_of_ne (h : target ≠ who) : c.turnTo who stage target = c target :=
  Function.update_of_ne h _ _

theorem stage?_exchange (turn : Turn σ) (target : Peer) (frame : Bytes) (c : Crowd σ) (p : Peer) :
    (turn.link.exchange target frame c).2.stage? p = c.stage? p := by
  simp only [Turn.link, stage?]
  cases htarget : c target with
  | none => rfl
  | some party =>
    simp only
    by_cases hp : p = target
    · rw [hp, put_self, htarget]
      rfl
    · rw [put_of_ne hp]

theorem stage?_step_of_ne {p : Peer} (hp : p ≠ turn.who) : (c.step turn).stage? p = c.stage? p := by
  have hput (party : Party σ) : (c.put turn.who party).stage? p = c.stage? p := by
    rw [stage?, put_of_ne hp, stage?]
  cases hparty : c turn.who with
  | none => rw [step, hparty]
  | some party =>
    obtain ⟨node, stage⟩ := party
    rw [step_eq hparty]
    fun_cases proceed turn node c stage with
    | case1 | case2 | case3 | case4 | case5 | case7 => exact hput _
    | case6 search left target me reply after hcall =>
      have hafter := stage?_exchange turn target (joinRequest node.delimiters me) c p
      rw [hcall] at hafter
      rw [stage?, turnTo_of_ne hp]
      exact hafter
    | case8 => rfl
    | case9 => rfl

theorem stage?_step (hparty : c turn.who = some ⟨node, stage⟩) :
    ∃ later, (c.step turn).stage? turn.who = some later ∧ stage.Goes later := by
  have hput (party : Party σ) : (c.put turn.who party).stage? turn.who = some party.stage :=
    congrArg _ (put_self ..)
  have hstage : c.stage? turn.who = some stage := congrArg _ hparty
  rw [step_eq hparty]
  fun_cases proceed turn node c stage with
  | case1 => exact ⟨_, hput _, .looks _⟩
  | case2 search => exact ⟨_, hput _, .leads _⟩
  | case3 search => exact ⟨_, hput _, .despairs _⟩
  | case4 search => exact ⟨_, hput _, .turns ..⟩
  | case5 search => exact ⟨_, hput _, .fails ..⟩
  | case6 search left target me reply after hcall =>
    have hafter := stage?_exchange turn target (joinRequest node.delimiters me) c turn.who
    rw [hcall, hstage, stage?] at hafter
    obtain ⟨party, hparty, -⟩ := Option.map_eq_some_iff.1 hafter
    exact ⟨_, congrArg _ (turnTo_self hparty), Stage.goes_heard ..⟩
  | case7 => exact ⟨_, hput _, .follows _⟩
  | case8 => exact ⟨_, hstage, .stays _⟩
  | case9 => exact ⟨_, hstage, .stays _⟩

theorem stage?_goes (turn : Turn σ) {p : Peer} (hp : c.stage? p = some stage) :
    ∃ later, (c.step turn).stage? p = some later ∧ stage.Goes later := by
  by_cases hturn : p = turn.who
  · subst hturn
    obtain ⟨⟨node, stage⟩, hparty, rfl⟩ := Option.map_eq_some_iff.1 hp
    exact stage?_step hparty
  · exact ⟨stage, (stage?_step_of_ne hturn).trans hp, .stays stage⟩

def Alone (turn : Turn σ) (c after : Crowd σ) : Prop :=
  ∃ n, c.run (List.replicate n turn) = after

theorem Alone.once (h : c.step turn = after) : Alone turn c after := ⟨1, h⟩

theorem Alone.trans {later : Crowd σ} (h : Alone turn c after) (hlater : Alone turn after later) :
    Alone turn c later := by
  obtain ⟨m, rfl⟩ := h
  obtain ⟨n, rfl⟩ := hlater
  refine ⟨m + n, ?_⟩
  rw [← List.replicate_append_replicate, run_append]

/-- A call to another node goes the same whatever stage one is at oneself. -/
theorem exchange_turnTo (h : target ≠ who) (frame : Bytes) :
    turn.link.exchange target frame (c.turnTo who stage) =
      ((turn.link.exchange target frame c).1,
        (turn.link.exchange target frame c).2.turnTo who stage) := by
  simp only [Turn.link, turnTo_of_ne h]
  cases c target with
  | none => rfl
  | some party =>
    simp only [turnTo, put]
    rw [Function.update_of_ne h.symm, Function.update_comm h.symm]

theorem exchange_of_ne (turn : Turn σ) (c : Crowd σ) (h : target ≠ who) (frame : Bytes) :
    (turn.link.exchange target frame c).2 who = c who := by
  simp only [Turn.link]
  cases c target with
  | none => rfl
  | some party => exact put_of_ne h.symm

theorem joinFrom_of_ne (turn : Turn σ) (c : Crowd σ) (d : Delimiters) (dials : Nat)
    (h : target ≠ who) :
    (joinFrom turn.link d who dials target c).2 who = c who := by
  induction dials generalizing target c with
  | zero => rfl
  | succ dials ih =>
    have hcall := exchange_of_ne turn c h (joinRequest d who)
    simp only [joinFrom]
    match readAnswer d (turn.link.exchange target (joinRequest d who) c).1 with
    | .error _ => exact hcall
    | .ok (.accepted _ _, _) => exact hcall
    | .ok (.redirect leader, _) =>
      simp only
      by_cases hleader : leader = who
      · rw [if_pos hleader]
        exact hcall
      · rw [if_neg hleader, ih _ hleader, hcall]

/-- A node that goes on alone dials as one attempt to join does. -/
theorem dial_alone (search : Search) (left : Nat) (hparty : c turn.who = some ⟨node, earlier⟩)
    (hme : node.members.me = turn.who) (h : target ≠ turn.who) :
    Alone turn (c.turnTo turn.who (.dials search left target))
      (match joinFrom turn.link node.delimiters turn.who left target c with
      | (.ok joined, c) => c.turnTo turn.who (.joined joined)
      | (.error _, c) => c.turnTo turn.who (.chooses search.afterFailure)) := by
  induction left generalizing target c with
  | zero =>
    refine .once ?_
    rw [step_eq (turnTo_self hparty), proceed, put_turnTo, ← turnTo_eq_put hparty, joinFrom]
  | succ left ih =>
    have hcall := exchange_of_ne turn c h (joinRequest node.delimiters turn.who)
    have hstep : (c.turnTo turn.who (.dials search (left + 1) target)).step turn =
        (turn.link.exchange target (joinRequest node.delimiters turn.who) c).2.turnTo turn.who
          (.heard turn.who search left target (readAnswer node.delimiters
            (turn.link.exchange target (joinRequest node.delimiters turn.who) c).1)) := by
      rw [step_eq (turnTo_self hparty)]
      simp only [proceed, hme, exchange_turnTo h, turnTo_turnTo]
    rw [joinFrom]
    generalize turn.link.exchange target (joinRequest node.delimiters turn.who) c = called
      at hcall hstep ⊢
    match hread : readAnswer node.delimiters called.1 with
    | .error _ =>
      rw [hread] at hstep
      simp only [hread]
      exact .once hstep
    | .ok (.accepted _ _, _) =>
      rw [hread] at hstep
      simp only [hread]
      exact .once hstep
    | .ok (.redirect leader, _) =>
      rw [hread, Stage.heard] at hstep
      simp only [hread]
      by_cases hleader : leader = turn.who
      · rw [if_pos hleader] at hstep ⊢
        exact .once hstep
      · rw [if_neg hleader] at hstep ⊢
        exact (Alone.once hstep).trans (ih (hcall.trans hparty) hleader)

theorem ask_alone {search : Search} {rest : List Peer}
    (hparty : c turn.who = some ⟨node, earlier⟩) (hme : node.members.me = turn.who)
    (hcandidates : search.candidates = target :: rest) (h : target ≠ turn.who) :
    Alone turn (c.turnTo turn.who (.chooses search))
      (c.turnTo turn.who (.dials search maxDials target)) := by
  refine .once ?_
  rw [step_eq (turnTo_self hparty), proceed, hme]
  simp only [Search.move, hcandidates, if_neg h]
  rw [put_turnTo, turnTo_eq_put hparty]

def concluded (site : Site σ) (node : Node σ) : Option Succession → Party σ
  | some .lead => ⟨node.lead site, .settled⟩
  | some (.follow joined) => ⟨node.follow joined, .settled⟩
  | none => ⟨node, .failed⟩

/-- A node that goes on alone does what the whole search does. -/
theorem findSuccessor_alone (search : Search) (hparty : c turn.who = some ⟨node, earlier⟩)
    (hme : node.members.me = turn.who) :
    Alone turn (c.turnTo turn.who (.chooses search))
      (match findSuccessor turn.link node.delimiters turn.who search c with
      | (outcome, c) => c.put turn.who (concluded turn.site node outcome)) := by
  fun_induction findSuccessor turn.link node.delimiters turn.who search c with
  | case1 search c hnone =>
    refine .once ?_
    rw [step_eq (turnTo_self hparty), proceed, Search.move, hnone]
    exact put_turnTo ..
  | case2 search c rest hcandidates =>
    refine .once ?_
    rw [step_eq (turnTo_self hparty), proceed, hme]
    simp only [Search.move, hcandidates, if_true, put_turnTo, concluded]
  | case3 search c candidate rest hcandidates hne joined after hjoin =>
    have hdial := dial_alone search maxDials hparty hme hne
    have hkept := joinFrom_of_ne turn c node.delimiters maxDials hne
    rw [Roster.join] at hjoin
    rw [hjoin] at hdial hkept
    refine ((ask_alone hparty hme hcandidates hne).trans hdial).trans (.once ?_)
    rw [step_eq (turnTo_self (hkept.trans hparty)), proceed, put_turnTo]
    rfl
  | case4 search c candidate rest hcandidates hne _ after hjoin hless ih =>
    have hdial := dial_alone search maxDials hparty hme hne
    have hkept := joinFrom_of_ne turn c node.delimiters maxDials hne
    rw [Roster.join] at hjoin
    rw [hjoin] at hdial hkept
    exact ((ask_alone hparty hme hcandidates hne).trans hdial).trans (ih (hkept.trans hparty))

end Crowd

end CrawlCluster.Takeover
