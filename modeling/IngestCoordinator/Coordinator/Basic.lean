-- SUMMARY: The coordinator's state and the calls it makes to its parts.
import IngestCoordinator.Allocator.Grant
import IngestCoordinator.Allocator.Recovery
import IngestCoordinator.Allocator.Reports
import IngestCoordinator.Allocator.Sealing
import IngestCoordinator.Catalog
import IngestCoordinator.Cluster
import IngestCoordinator.Mailbox
import IngestCoordinator.Settings.Basic
import IngestCoordinator.Status

/-!
# The coordinator

The coordinator joins the allocator, the cluster, the barrier and the channels, and
answers clients and nodes. What nodes report lies in mailboxes until the background
duties, which run from a successful start to a stop, get to it.
-/

namespace IngestCoordinator

/-- Whether the background duties run. -/
inductive Phase where
  /-- No start has been tried. -/
  | idle
  /-- They run: what the watcher has seen of the barrier, and when silent nodes are due. -/
  | running (watcher : Barrier.Subscriber) (nextReap : Nat)
  /-- A start has failed, or the coordinator was stopped. -/
  | ended
  deriving DecidableEq, Repr

/-- A coordinator with everything it owns. -/
structure Coordinator where
  settings : Settings
  allocator : Allocator
  catalog : Catalog
  channels : Channels
  timeTicks : Mailbox TimeTick
  statistics : Mailbox ReportBatch
  flushes : Mailbox FlushCompleted
  cluster : Cluster := {}
  barrier : Barrier := {}
  /-- The channel that carries changes of collections, once the catalog has named it. -/
  ddChannel : Option String := none
  /-- How often the catalog has been asked for it. -/
  ddCalls : Nat := 0
  status : Status := .initializing
  phase : Phase := .idle
  /-- A stop has been asked for. -/
  stopping : Bool := false
  metrics : ServiceMetrics := {}
  deriving Repr

/-- The policy that settings ask for. -/
def Policy.ofSettings (settings : SegmentSettings) : Policy where
  sizeBytes := settings.sizeBytes
  sealProportion := settings.sealProportion
  grantLifetimeMs := settings.grantLifetimeMs

namespace Coordinator

/-- A coordinator that has not been started. -/
def create (settings : Settings) (store : GuardedStore) (ids : IdSource) (catalog : Catalog) :
    Coordinator where
  settings := settings
  allocator := { store, ids, policy := .ofSettings settings.segment }
  catalog := catalog
  channels := {
    perCollection := settings.channels.perCollection
    stem := settings.channels.insertStem }
  timeTicks := .ofCapacity settings.channels.buffer.toNat
  statistics := .ofCapacity settings.channels.buffer.toNat
  flushes := .ofCapacity settings.channels.buffer.toNat

/-- The metadata store. -/
def store (coordinator : Coordinator) : GuardedStore :=
  coordinator.allocator.store

/-- Has the allocator do something. -/
def onAllocator (call : Operation Allocator α) : Operation Coordinator α :=
  call.onPart Coordinator.allocator fun coordinator allocator => { coordinator with allocator }

/-- Has the allocator do something that cannot fail. -/
def stepAllocator (step : StateM Allocator α) : StateM Coordinator α :=
  Operation.stepOnPart Coordinator.allocator
    (fun coordinator allocator => { coordinator with allocator }) step

/-- Makes a call to the cluster. -/
def onCluster (call : Operation Cluster α) : Operation Coordinator α :=
  call.onPart Coordinator.cluster fun coordinator cluster => { coordinator with cluster }

/-- Makes a call to the division of channels. -/
def onChannels (call : Operation Channels α) : Operation Coordinator α :=
  call.onPart Coordinator.channels fun coordinator channels => { coordinator with channels }

/-- Changes the cluster. -/
def changeCluster (change : Cluster → Cluster) (coordinator : Coordinator) : Coordinator :=
  { coordinator with cluster := change coordinator.cluster }

/-- A stored collection. -/
def requireCollection (id : CollectionId) : Operation Coordinator Collection := do
  match ← ofExcept ((← get).store.collection? id) with
  | none => throw (.notFound (.collection id))
  | some collection => return collection

end Coordinator

end IngestCoordinator
