import CrawlCluster.Proofs.Coordinator.Ensures
import Mathlib.Data.List.Induction

/-!
Whole lives of a coordinator: the requests it gets, what it answers to each, and the state it is
left in. Between the requests, and between the store calls of one of them, the clock may show
anything.
-/

set_option autoImplicit false

namespace CrawlCluster.Coordinator

open Program (ofExcept)

inductive Operation where
  | uploadJobs (body : String)
  | uploadHarvest (body : String)
  | takeJob
  | renewLease (body : String)
  | reportJob (node : Peer) (client body : String)
  | sweep (now : Int64)
  deriving DecidableEq, Repr

inductive Answer where
  | text (text : String)
  | assignment (assignment : Assignment)
  | leaseTime (leaseTime : Int64)
  | count (count : Nat)
  deriving DecidableEq, Repr

inductive Request where
  | upload (jobs : List NewJob)
  | harvest (brought : Harvest)
  | takeJob
  | renew (lease : Lease)
  | report (node : Peer) (client : String) (said : Report)
  | sweep (now : Int64)
  deriving DecidableEq, Repr

def Operation.program (s : Settings) : Operation → Program Answer
  | .uploadJobs body => do return .text (← Coordinator.uploadJobs s body)
  | .uploadHarvest body => do return .text (← Coordinator.uploadHarvest s body)
  | .takeJob => do return .assignment (← Coordinator.takeJob s)
  | .renewLease body => do return .leaseTime (← Coordinator.renewLease s body)
  | .reportJob node client body => do return .text (← Coordinator.reportJob s node client body)
  | .sweep now => do return .count (← Coordinator.sweep s now)

def Operation.read (s : Settings) : Operation → Except PayloadError Request
  | .uploadJobs body =>
    (NewJob.parseBatch s.delimiters (s.delimiters.entries body)).map .upload
  | .uploadHarvest body => (Harvest.parse s.delimiters body).map .harvest
  | .takeJob => .ok .takeJob
  | .renewLease body => (Lease.parse s.delimiters body).map .renew
  | .reportJob node client body => (Report.parse s.delimiters body).map (.report node client)
  | .sweep now => .ok (.sweep now)

def Request.program (s : Settings) : Request → Program Answer
  | .upload jobs => do return .text (← acceptJobs s jobs)
  | .harvest brought => do return .text (← acceptHarvest s brought)
  | .takeJob => do return .assignment (← Coordinator.takeJob s)
  | .renew lease => do return .leaseTime (← Coordinator.renew lease)
  | .report node client said => do return .text (← acceptReport s node client said)
  | .sweep now => do return .count (← Coordinator.sweep s now)

theorem Operation.program_eq (s : Settings) (operation : Operation) :
    operation.program s = ofExcept (operation.read s) >>= Request.program s := by
  cases operation with
  | uploadJobs body =>
    simp only [program, read, Coordinator.uploadJobs]
    cases NewJob.parseBatch s.delimiters (s.delimiters.entries body) <;> rfl
  | uploadHarvest body =>
    simp only [program, read, Coordinator.uploadHarvest]
    cases Harvest.parse s.delimiters body <;> rfl
  | takeJob => rfl
  | renewLease body =>
    simp only [program, read, Coordinator.renewLease]
    cases Lease.parse s.delimiters body <;> rfl
  | reportJob node client body =>
    simp only [program, read, Coordinator.reportJob]
    cases Report.parse s.delimiters body <;> rfl
  | sweep now => rfl

structure Step where
  operation : Operation
  now : Int64
  deriving DecidableEq, Repr

structure Entry where
  operation : Operation
  result : Except JobError Answer

/-- What a coordinator was asked and answered so far, and what it is left with. -/
structure Course where
  past : List Entry := []
  state : State ScriptedStore

namespace Course

variable (s : Settings)

variable [ScanOrder]

def ask (c : Course) (step : Step) : Except JobError Answer × State ScriptedStore :=
  (step.operation.program s).run (s.scriptedSite step.now) c.state

def take (c : Course) (step : Step) : Course :=
  { past := c.past ++ [⟨step.operation, (c.ask s step).1⟩], state := (c.ask s step).2 }

def run (clock : Nat → Int64) (steps : List Step) : Course :=
  steps.foldl (take s) { state := { store := .steady clock } }

def books (c : Course) : Books := c.state.plain.books

theorem run_snoc (clock : Nat → Int64) (steps : List Step) (step : Step) :
    run s clock (steps ++ [step]) = (run s clock steps).take s step :=
  List.foldl_append ..

theorem run_induction {inv : Course → Prop} (clock : Nat → Int64)
    (start : inv { state := { store := .steady clock } })
    (step : ∀ (c : Course) (step : Step), inv c → inv (c.take s step)) (steps : List Step) :
    inv (run s clock steps) := by
  induction steps using List.reverseRecOn with
  | nil => exact start
  | append_singleton steps last ih =>
    rw [run_snoc]
    exact step _ last ih

end Course
end CrawlCluster.Coordinator
