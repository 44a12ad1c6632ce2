import CrawlCluster.Roster.Joining

/-!
What a follower does when its leader is lost: walk the members in the order they joined, take
over where it comes first itself, and otherwise ask each of them a few times before the next.
-/

set_option autoImplicit false

namespace CrawlCluster.Roster

/-- Attempts at joining each candidate. -/
def attemptsEach : Nat := 5

structure Search where
  candidates : List Peer
  attempts : Nat := attemptsEach
  deriving DecidableEq, Repr

inductive Search.Move where
  | takeOver
  | ask (candidate : Peer)
  | giveUp
  deriving DecidableEq, Repr

namespace Search

def move (me : Peer) (s : Search) : Move :=
  match s.candidates with
  | [] => .giveUp
  | candidate :: _ => if candidate = me then .takeOver else .ask candidate

def afterFailure (s : Search) : Search :=
  if 1 < s.attempts then { s with attempts := s.attempts - 1 }
  else { candidates := s.candidates.tail }

def budget (s : Search) : Nat :=
  match s.candidates with
  | [] => 0
  | _ :: rest => s.attempts + 1 + (attemptsEach + 1) * rest.length

theorem budget_afterFailure_lt {s : Search} (h : s.candidates ≠ []) :
    s.afterFailure.budget < s.budget := by
  obtain ⟨candidates, attempts⟩ := s
  cases candidates with
  | nil => exact absurd rfl h
  | cons c rest =>
    by_cases ha : 1 < attempts
    · simp [afterFailure, budget, ha]
      omega
    · cases rest with
      | nil => simp [afterFailure, budget, ha]
      | cons r rest =>
        simp [afterFailure, budget, ha, attemptsEach]
        omega

end Search

inductive Succession where
  | lead
  | follow (joined : Joined)
  deriving DecidableEq, Repr

/-- The whole search with nothing in between; none if every candidate was tried in vain. -/
def findSuccessor {ν : Type} (link : Link ν) (d : Delimiters) (me : Peer) (s : Search) (net : ν) :
    Option Succession × ν :=
  match h : s.candidates with
  | [] => (none, net)
  | candidate :: _ =>
    if candidate = me then (some .lead, net)
    else
      match join link d me candidate net with
      | (.ok joined, net) => (some (.follow joined), net)
      | (.error _, net) =>
        have : s.afterFailure.budget < s.budget := Search.budget_afterFailure_lt (by simp [h])
        findSuccessor link d me s.afterFailure net
termination_by s.budget

end CrawlCluster.Roster
