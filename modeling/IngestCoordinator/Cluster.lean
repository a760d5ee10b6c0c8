-- SUMMARY: The cluster: the registry with the clock of heartbeats and the commands sent out.
import IngestCoordinator.Registry

/-!
# The cluster

The cluster is the registry of nodes together with the time by which heartbeats
are judged and the queue of commands to the nodes. Commands are posted and
forgotten: whether they arrive does not change what the caller is told.
-/

namespace IngestCoordinator

/-- The nodes, the commands on their way to them, and the time. -/
structure Cluster where
  registry : Registry := {}
  outbox : Outbox := {}
  /-- The time in milliseconds. -/
  now : Nat := 0
  /-- The number of nodes after the latest change, as shown to the outside. -/
  registeredNodes : Nat := 0
  deriving DecidableEq, Repr

namespace Cluster

/-- Makes a call to the registry. -/
def onRegistry (call : Operation Registry α) : Operation Cluster α :=
  call.onPart Cluster.registry fun cluster registry => { cluster with registry }

/-- Lets time pass. -/
def advance (cluster : Cluster) (ms : Nat) : Cluster :=
  { cluster with now := cluster.now + ms }

/-- Posts commands in order. -/
def post (cluster : Cluster) (commands : List Command) : Cluster :=
  { cluster with outbox := commands.foldl Outbox.post cluster.outbox }

/-- Shows the number of registered nodes to the outside. -/
def showSize (cluster : Cluster) : Cluster :=
  { cluster with registeredNodes := cluster.registry.size }

/-- Registers a node; says whether it is new. -/
def register (address : String) (id : NodeId) : Operation Cluster (NodeInfo × Bool) := do
  let (node, created) ← onRegistry (Registry.register (← get).now address id)
  if created then modify showSize
  return (node, created)

/-- Removes a node and leaves its groups without an owner. -/
def deregister (id : NodeId) : Operation Cluster NodeInfo := do
  let node ← onRegistry (Registry.deregister id)
  modify showSize
  return node

/-- Notes a heartbeat of a node. -/
def touch (cluster : Cluster) (id : NodeId) : Cluster :=
  { cluster with registry := cluster.registry.touch cluster.now id }

/-- The nodes with their health, by number. -/
def health (cluster : Cluster) (timeoutMs : Nat) : List (NodeInfo × Health) :=
  cluster.registry.health cluster.now timeoutMs

/-- The silent nodes, by number. -/
def silentNodes (cluster : Cluster) (timeoutMs : Nat) : List NodeId :=
  cluster.registry.silentNodes cluster.now timeoutMs

/-- Gives each group that has no owner to a node and tells the nodes of their new groups. -/
def watch (groups : List ChannelGroup) : Operation Cluster (List (String × NodeId)) := do
  let done ← onRegistry (Registry.watch groups)
  modify fun cluster => cluster.post done.commands
  return done.owners

/-- Has a registered node store segments. -/
def flush (id : NodeId) (collection : CollectionId) (segments : List SegmentId) :
    Operation Cluster Unit := do
  let command ← ofExcept ((← get).registry.flushCommand id collection segments)
  modify fun cluster => cluster.post [command]

/-- Asks the nodes to store sealed segments. -/
def requestFlush (cluster : Cluster) (segments : List Segment) : Cluster :=
  cluster.post (cluster.registry.flushCommands segments)

/--
Waits until enough nodes are registered, while nothing else happens: either there
are enough already, or the wait is called off, or the time runs out.
-/
def await (expected timeoutMs : Nat) (calledOff : Bool) : Operation Cluster Nat := do
  let registered := (← get).registry.size
  if expected ≤ registered then return registered
  if calledOff then throw .cancelled
  modify fun cluster => cluster.advance timeoutMs
  throw (.timeout registered expected timeoutMs)

end Cluster

end IngestCoordinator
