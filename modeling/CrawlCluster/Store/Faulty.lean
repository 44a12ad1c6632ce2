import CrawlCluster.Store.Basic

/-!
A store with faults laid in its way: calls that fail without touching it, calls that are told
something else than it holds, and calls that somebody else gets in before.
-/

set_option autoImplicit false

namespace CrawlCluster

inductive FaultEffect where
  | fail (error : StoreError)
  /-- The depth or the crawl id reported in place of the true one. -/
  | report (value : Int)
  /-- A call made by somebody else right before. -/
  | preceded (call : StoreCall)
  deriving DecidableEq, Repr

structure Fault where
  kind : StoreCall.Kind
  effect : FaultEffect
  /-- Calls let through before the fault first shows. -/
  skip : Nat := 0
  /-- Calls it still shows on. -/
  times : Nat := 1
  deriving DecidableEq, Repr

/-- The first fault that shows on a call of this kind, and the faults as they are afterwards. -/
def Fault.next (kind : StoreCall.Kind) : List Fault → Option FaultEffect × List Fault
  | [] => (none, [])
  | f :: faults =>
    if f.kind ≠ kind then
      let (effect, faults) := next kind faults
      (effect, f :: faults)
    else
      match f.skip, f.times with
      | skip + 1, _ =>
        let (effect, faults) := next kind faults
        (effect, { f with skip } :: faults)
      | 0, 0 =>
        let (effect, faults) := next kind faults
        (effect, f :: faults)
      | 0, times + 1 => (some f.effect, { f with times } :: faults)

structure FaultyStore where
  store : Store := {}
  faults : List Fault := []
  deriving DecidableEq, Repr

namespace FaultyStore

/-- The answer to a call that reports a number of the caller's choice. -/
def reported (value : Int) : (call : StoreCall) → Option call.Reply
  | .depth => some value.toNat
  | .crawlId => some (Int32.ofInt value)
  | _ => none

variable [ScanOrder]

def perform (now : Int64) (call : StoreCall) (s : FaultyStore) :
    Except StoreError call.Reply × FaultyStore :=
  let (effect, faults) := Fault.next call.kind s.faults
  let plain (store : Store) : Except StoreError call.Reply × FaultyStore :=
    let (reply, store) := store.perform now call
    (reply, { store, faults })
  match effect with
  | none => plain s.store
  | some (.fail error) => (.error error, { s with faults })
  | some (.report value) =>
    match reported value call with
    | some reply => (.ok reply, { s with faults })
    | none => plain s.store
  | some (.preceded other) => plain (s.store.perform now other).2

def backend : Backend FaultyStore := ⟨perform⟩

end FaultyStore
end CrawlCluster
