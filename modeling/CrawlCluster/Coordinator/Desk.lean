import CrawlCluster.Coordinator.Run

set_option autoImplicit false

namespace CrawlCluster.Coordinator

abbrev Desk := State FaultyStore

variable [ScanOrder]

def Settings.site (now : Int64) (s : Settings) : Site FaultyStore :=
  { backend := FaultyStore.backend, retry := s.retry, now }

namespace State

def rows (desk : Desk) : Store := desk.store.store

def withRows (store : Store) (desk : Desk) : Desk :=
  { desk with store := { desk.store with store } }

/-- A store call by somebody else; no fault shows on it. -/
def askStore (now : Int64) (call : StoreCall) (desk : Desk) :
    Except StoreError call.Reply × Desk :=
  let (reply, store) := desk.rows.perform now call
  (reply, desk.withRows store)

def addFault (fault : Fault) (desk : Desk) : Desk :=
  { desk with store := { desk.store with faults := desk.store.faults ++ [fault] } }

def clearFaults (desk : Desk) : Desk := { desk with store := { desk.store with faults := [] } }

def clearLogs (desk : Desk) : Desk := { desk with events := [], calls := [], slept := [] }

end State
end CrawlCluster.Coordinator
