-- SUMMARY: Starting, stopping and restarting the coordinator.
import IngestCoordinator.Coordinator.Background

/-!
# The life of a coordinator

A start waits for nodes, loads the catalog and recovers the allocator; only then do
the background duties begin. A coordinator can be started once. A restart puts a
new coordinator in its place, which knows only what the store kept.
-/

namespace IngestCoordinator.Coordinator

/-- Loads the catalog into the store. -/
def loadCatalog : Operation Coordinator Nat := do
  let catalog := (← get).catalog
  onAllocator (Allocator.onStore catalog.load)

/-- What must succeed before the duties begin: nodes, catalog, recovery. -/
def prepare : Operation Coordinator Nat := do
  let coordinator ← get
  let cluster := coordinator.settings.cluster
  let nodes ← onCluster
    (Cluster.await cluster.expectedNodes.toNat cluster.formationTimeoutMs coordinator.stopping)
  let _ ← loadCatalog
  let _ ← onAllocator Allocator.recover
  return nodes

/-- Loses what the mailboxes hold and takes no further messages. -/
def closeMailboxes (coordinator : Coordinator) : Coordinator :=
  { coordinator with
    timeTicks := coordinator.timeTicks.close
    statistics := coordinator.statistics.close
    flushes := coordinator.flushes.close }

/-- The duties end. -/
def endDuties (coordinator : Coordinator) : Coordinator :=
  { coordinator.closeMailboxes with phase := .ended, status := .abnormal }

/-- The duties begin; silent nodes are due at once. -/
def beginDuties (coordinator : Coordinator) : Coordinator :=
  { coordinator with
    phase := .running coordinator.barrier.subscribe coordinator.cluster.now
    status := .healthy }

/-- Starts a coordinator that has never been started; the duties begin if all goes well. -/
def start : Operation Coordinator Unit := do
  match (← get).phase with
  | .running _ _ | .ended => throw (.invalidState .alreadyStarted)
  | .idle =>
    match ← Operation.ofStep prepare.attempt with
    | .ok _ => modify beginDuties
    | .error error =>
      modify endDuties
      throw error

/-- Stops the duties. A coordinator that has not been started keeps its mailboxes. -/
def stop (coordinator : Coordinator) : Coordinator :=
  let coordinator := { coordinator with stopping := true }
  match coordinator.phase with
  | .running _ _ => coordinator.endDuties
  | .idle | .ended => { coordinator with status := .abnormal }

/-- The coordinator that takes over after a crash: only the store's backend is kept. -/
def successor (coordinator : Coordinator) : Coordinator :=
  let successor := create coordinator.settings coordinator.store coordinator.allocator.ids
    coordinator.catalog
  { successor with
    allocator := coordinator.allocator.restarted
    cluster := { coordinator.cluster with registry := {} }
    ddCalls := coordinator.ddCalls
    metrics := coordinator.metrics }

/-- Stops the coordinator and puts its successor on the store as the backend has kept it. -/
def restart : Operation Coordinator Unit := do
  modify stop
  modify fun coordinator =>
    { coordinator with
      allocator.store.metadata.backend := coordinator.store.metadata.backend.setUnavailable false }
  onAllocator (Allocator.onStore (GuardedStore.onMetadata Metadata.reopen))
  modify successor

end IngestCoordinator.Coordinator
