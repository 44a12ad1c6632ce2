import CrawlCluster.Worker

set_option autoImplicit false

namespace CrawlCluster.Worker

open Client (Call Error)

inductive ScriptedAnswer where
  | assignment (assignment : Assignment)
  | leaseTime (leaseTime : Int64)
  | done
  | error (error : Error)
  deriving DecidableEq, Repr

/-- What a call makes of an answer; one of another kind is no answer to it. -/
def ScriptedAnswer.to : ScriptedAnswer → (call : Call) → Except Error call.Value
  | .error e, _ => .error e
  | .assignment a, .takeJob => .ok a
  | .leaseTime t, .renewLease _ => .ok t
  | _, .reportJob _ | _, .uploadJobs _ | _, .uploadHarvest _ => .ok ()
  | _, _ => .error .disconnected

structure Script where
  /-- Those still to come; behind the last the connection is closed. -/
  answers : List ScriptedAnswer := []
  calls : List Call := []
  deriving Repr

def Script.answer (call : Call) (script : Script) : Except Error call.Value × Script :=
  let calls := script.calls ++ [call]
  match script.answers with
  | [] => (.error .disconnected, { script with calls })
  | answer :: answers => (answer.to call, { answers, calls })

def scripted : Service Script := ⟨Script.answer⟩

end CrawlCluster.Worker
