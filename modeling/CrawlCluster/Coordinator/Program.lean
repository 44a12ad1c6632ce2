import CrawlCluster.Stats
import CrawlCluster.Store.Call

/-!
A job operation as a program: a tree of the atomic actions it takes, each with what it does next
on every answer. The same tree is run on its own and interleaved with others.
-/

set_option autoImplicit false

namespace CrawlCluster

inductive JobError where
  | payload (error : PayloadError)
  /-- An unknown job, or a lease that was renewed or retired since. -/
  | notExpected
  | crawlDeprecated
  /-- The job with this number in its batch was not enqueued. -/
  | upload (index : Nat)
  | store (error : StoreError)
  deriving DecidableEq, Repr

namespace JobError

def message : JobError → String
  | .payload error => error.message
  | .notExpected => "Job not currently expected."
  | .crawlDeprecated => "Crawl result deprecated."
  | .upload index => "Unable to add job " ++ index.repr ++ " to database."
  | .store error => "Job store unavailable: " ++ error.message

def response (error : JobError) : Frame.Response :=
  match error with
  | .payload _ | .notExpected | .crawlDeprecated => .clientError error.message
  | .upload _ | .store _ => .serverError error.message

end JobError

namespace Coordinator

/-- What operations that run side by side exclude each other from. -/
inductive Lock where
  /-- Handing out jobs and crawl directives. -/
  | crawl
  /-- From the check of a lease until the table of leases is written. -/
  | leases
  deriving DecidableEq, Repr

inductive Action where
  /-- A store call, repeated on failure as the retry policy has it. -/
  | ask (call : StoreCall)
  | readClock
  /-- The crawl directive whose harvest is awaited. -/
  | outstanding
  | setOutstanding (directive : Option Directive)
  /-- The crawl id as last heard of. -/
  | crawlId
  | setCrawlId (crawlId : Int32)
  | record (event : Event)
  | acquire (lock : Lock)
  | release (lock : Lock)
  deriving DecidableEq, Repr

abbrev Action.Reply : Action → Type
  | .ask call => Except StoreError call.Reply
  | .readClock => Int64
  | .outstanding => Option Directive
  | .crawlId => Int32
  | .setOutstanding _ | .setCrawlId _ | .record _ | .acquire _ | .release _ => Unit

inductive Program (α : Type) where
  | done (result : Except JobError α)
  | act (action : Action) (next : action.Reply → Program α)

namespace Program

variable {α β : Type}

def bind : Program α → (α → Program β) → Program β
  | .done (.ok value), f => f value
  | .done (.error error), _ => .done (.error error)
  | .act action next, f => .act action fun reply => (next reply).bind f

instance : Monad Program where
  pure value := .done (.ok value)
  bind := bind

def fail (error : JobError) : Program α := .done (.error error)

def perform (action : Action) : Program action.Reply := .act action fun reply => .done (.ok reply)

def ask (call : StoreCall) : Program (Except StoreError call.Reply) := perform (.ask call)

def orFail (error : StoreError → JobError) : Except StoreError α → Program α
  | .ok value => .done (.ok value)
  | .error e => .done (.error (error e))

/-- A store call that has to succeed. -/
def query (call : StoreCall) : Program call.Reply := do orFail .store (← ask call)

def ofExcept : Except PayloadError α → Program α
  | .ok value => .done (.ok value)
  | .error error => .done (.error (.payload error))

def thenRelease (lock : Lock) : Program α → Program α
  | .done result => .act (.release lock) fun _ => .done result
  | .act action next => .act action fun reply => (next reply).thenRelease lock

def holding (lock : Lock) (program : Program α) : Program α :=
  .act (.acquire lock) fun _ => program.thenRelease lock

end Program
end Coordinator
end CrawlCluster
