-- SUMMARY: Nodes joining and leaving the coordinator, and how they are.
import IngestCoordinator.Coordinator.Basic

/-!
# Nodes of the coordinator

A node is tracked by the barrier from the moment it is registered to the moment it
leaves or is found silent.
-/

namespace IngestCoordinator

/-- The names of the channels that a node needs. -/
structure StartParams where
  ddChannel : String
  statistics : String
  timeTick : String
  flushCompleted : String
  deriving DecidableEq, Repr

/-- What a node that registers is told. -/
structure Registration where
  node : NodeId
  coordinator : NodeId
  params : StartParams
  deriving DecidableEq, Repr

/-- How a node is. -/
structure NodeStatus where
  node : NodeId
  address : String
  status : Status
  deriving DecidableEq, Repr

/-- How the coordinator and its nodes are. -/
structure ComponentStates where
  coordinator : NodeId
  status : Status
  nodes : List NodeStatus
  deriving DecidableEq, Repr

/-! ## Records -/

def StartParams.toJson (params : StartParams) : Json :=
  .record [
    ("dd_channel", .ofString params.ddChannel),
    ("statistics_channel", .ofString params.statistics),
    ("time_tick_channel", .ofString params.timeTick),
    ("flush_completed_channel", .ofString params.flushCompleted)]

def Registration.toJson (registration : Registration) : Json :=
  .record [
    ("node_id", registration.node.toJson),
    ("coordinator_id", registration.coordinator.toJson),
    ("params", registration.params.toJson)]

def NodeStatus.toJson (node : NodeStatus) : Json :=
  .record [
    ("node_id", node.node.toJson),
    ("address", .ofString node.address),
    ("state", node.status.toJson)]

def ComponentStates.toJson (states : ComponentStates) : Json :=
  .record [
    ("coordinator_id", states.coordinator.toJson),
    ("state", states.status.toJson),
    ("nodes", .ofList NodeStatus.toJson states.nodes)]

/-! ## Joining and leaving -/

namespace Coordinator

/-- The number that nodes know the coordinator by. -/
def id (coordinator : Coordinator) : NodeId :=
  ⟨coordinator.settings.cluster.coordinator⟩

/-- The channel that carries changes of collections; the catalog is asked until it answers. -/
def askDdChannel : Operation Coordinator String := do
  match (← get).ddChannel with
  | some channel => return channel
  | none =>
    modify fun coordinator => { coordinator with ddCalls := coordinator.ddCalls + 1 }
    let channel ← ofExcept (← get).catalog.askDdChannel
    modify fun coordinator => { coordinator with ddChannel := some channel }
    return channel

/-- Registers a node and has the barrier track it. -/
def register (address : String) (node : NodeId) : Operation Coordinator Registration := do
  let ddChannel ← askDdChannel
  let (node, _) ← onCluster (Cluster.register address node)
  modify fun coordinator => { coordinator with barrier := coordinator.barrier.add node.id }
  let coordinator ← get
  let names := coordinator.settings.channels
  return {
    node := node.id
    coordinator := coordinator.id
    params := {
      ddChannel
      statistics := names.statistics
      timeTick := names.timeTick
      flushCompleted := names.flushCompleted } }

/-- Has the barrier stop tracking a node. -/
def untrack (node : NodeId) (coordinator : Coordinator) : Coordinator :=
  let (outcome, barrier) := coordinator.barrier.remove node
  { coordinator with barrier, metrics := coordinator.metrics.showOutcome outcome }

/-- Removes a node. -/
def deregister (node : NodeId) : Operation Coordinator Unit := do
  let _ ← onCluster (Cluster.deregister node)
  modify (untrack node)

/-- Removes nodes one after another; the answer lists those that were there. -/
def deregisterEach : List NodeId → StateM Coordinator (List NodeId)
  | [] => return []
  | node :: nodes => do
    let left ← (deregister node).attempt
    let rest ← deregisterEach nodes
    match left with
    | .ok () => return node :: rest
    | .error _ => return rest

/-- Removes the silent nodes, by number. -/
def reap : StateM Coordinator (List NodeId) := do
  let coordinator ← get
  deregisterEach (coordinator.cluster.silentNodes coordinator.settings.cluster.silenceTimeoutMs)

/-- A node is healthy unless it is silent. -/
def statusOf : Health → Status
  | .healthy => .healthy
  | .silent => .abnormal

/-- How the coordinator and its nodes are. -/
def componentStates (coordinator : Coordinator) : ComponentStates where
  coordinator := coordinator.id
  status := coordinator.status
  nodes := (coordinator.cluster.health coordinator.settings.cluster.silenceTimeoutMs).map
    fun (node, health) => { node := node.id, address := node.address, status := statusOf health }

end Coordinator

end IngestCoordinator
