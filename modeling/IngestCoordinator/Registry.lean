-- SUMMARY: The registry of data nodes: heartbeats, ownership of channel groups, and commands.
import IngestCoordinator.Channels
import IngestCoordinator.Segment.Basic

/-!
# The registry

Nodes register under an address and a number, both unique. Each channel group is
given to the node that watches the fewest groups and stays there until the node
leaves. Nodes are told what to do by commands, each with the node's record as it
was when the command was made; commands are queued without waiting.
-/

namespace IngestCoordinator

/-- A data node as it is registered. -/
structure NodeInfo where
  id : NodeId
  address : String
  /-- The names of the channel groups the node watches, in the order they were given. -/
  groups : List String
  deriving DecidableEq, Repr

namespace NodeInfo

def toJson (node : NodeInfo) : Json :=
  .record [
    ("node_id", node.id.toJson),
    ("address", .ofString node.address),
    ("channel_groups", .ofList .ofString node.groups)]

def ofJson? (value : Json) : Option NodeInfo := do
  let fields ← Json.Fields.ofJson? ["node_id", "address", "channel_groups"] value
  return {
    id := ← fields.required "node_id" Identifier.ofJson?
    address := ← fields.required "address" Json.string?
    groups := ← fields.required "channel_groups" (Json.list? Json.string?) }

end NodeInfo

/-- An order to a data node. -/
inductive Command where
  /-- Start consuming the channels of some groups. -/
  | watch (node : NodeInfo) (groups : List ChannelGroup)
  /-- Store some sealed segments of a collection durably. -/
  | flush (node : NodeInfo) (collection : CollectionId) (segments : List SegmentId)
  deriving DecidableEq, Repr

/-- The node that a command is for. -/
def Command.node : Command → NodeInfo
  | .watch node _ => node
  | .flush node _ _ => node

def Command.toJson : Command → Json
  | .watch node groups =>
    .record [("watch", node.toJson), ("groups", .ofList ChannelGroup.toJson groups)]
  | .flush node collection segments =>
    .record [
      ("flush", node.toJson),
      ("collection_id", collection.toJson),
      ("segment_ids", .ofList Identifier.toJson segments)]

/-- The queue of commands on their way to the nodes; once closed it takes nothing. -/
structure Outbox where
  isOpen : Bool := true
  queued : List Command := []
  deriving DecidableEq, Repr

namespace Outbox

/-- Queues a command, or loses it if the queue is closed. -/
def post (outbox : Outbox) (command : Command) : Outbox :=
  if outbox.isOpen then { outbox with queued := outbox.queued ++ [command] } else outbox

/-- Closes the queue; what it held is lost. -/
def close (outbox : Outbox) : Outbox :=
  { outbox with isOpen := false, queued := [] }

/-- The commands that have arrived, and the queue without them. -/
def drain (outbox : Outbox) : List Command × Outbox :=
  (outbox.queued, { outbox with queued := [] })

/-- Queues a command, failing if the queue is closed. -/
def send (command : Command) : Operation Outbox Unit := do
  if (← get).isOpen then modify (·.post command)
  else throw (.nodeUnavailable (some command.node.id) .queueClosed)

end Outbox

/-- The health of a node as its heartbeats show it. -/
inductive Health where
  | healthy
  | silent
  deriving DecidableEq, Repr

/-- The word for a health. -/
def Health.name : Health → String
  | .healthy => "healthy"
  | .silent => "silent"

/-- A registered node, with the time of its last heartbeat in milliseconds. -/
structure Member where
  info : NodeInfo
  lastHeartbeat : Nat
  deriving DecidableEq, Repr

/-- The registered nodes and the owners of the channel groups. -/
structure Registry where
  members : SortedMap NodeId Member := .empty
  owners : SortedMap String NodeId := .empty
  deriving DecidableEq, Repr

namespace Registry

/-- The number of registered nodes. -/
def size (registry : Registry) : Nat :=
  registry.members.size

/-- The record of a node. -/
def node? (registry : Registry) (id : NodeId) : Option NodeInfo :=
  (registry.members.get? id).map Member.info

/-- The node that watches a group. -/
def ownerOf (registry : Registry) (group : String) : Option NodeId :=
  registry.owners.get? group

/-- The node registered under an address. -/
def memberAt? (registry : Registry) (address : String) : Option Member :=
  registry.members.values.find? fun member => member.info.address == address

/-- Notes a heartbeat of a node; one that is not registered is ignored. -/
def touch (registry : Registry) (now : Nat) (id : NodeId) : Registry :=
  match registry.members.get? id with
  | none => registry
  | some member =>
    { registry with members := registry.members.insert id { member with lastHeartbeat := now } }

/--
Registers a node; says whether it is new. An address that is registered already
only gives its node a heartbeat, whatever number is asked for.
-/
def register (now : Nat) (address : String) (id : NodeId) :
    Operation Registry (NodeInfo × Bool) := do
  let registry ← get
  match registry.memberAt? address with
  | some member =>
    set (registry.touch now member.info.id)
    return (member.info, false)
  | none =>
    if registry.members.contains id then throw (.alreadyExists (.node id))
    let info : NodeInfo := { id, address, groups := [] }
    set { registry with members := registry.members.insert id ⟨info, now⟩ }
    return (info, true)

/-- Removes a node and leaves its groups without an owner. -/
def deregister (id : NodeId) : Operation Registry NodeInfo := do
  let registry ← get
  match registry.members.get? id with
  | none => throw (.notFound (.node id))
  | some member =>
    set { registry with
      members := registry.members.erase id
      owners := registry.owners.filter fun _ owner => owner ≠ id }
    return member.info

/-! ## Heartbeats -/

/-- A node is silent when its last heartbeat is longer ago than the timeout. -/
def Member.health (member : Member) (now timeoutMs : Nat) : Health :=
  if timeoutMs < now - member.lastHeartbeat then .silent else .healthy

/-- The nodes with their health, by number. -/
def health (registry : Registry) (now timeoutMs : Nat) : List (NodeInfo × Health) :=
  registry.members.values.map fun member => (member.info, Member.health member now timeoutMs)

/-- The silent nodes, by number. -/
def silentNodes (registry : Registry) (now timeoutMs : Nat) : List NodeId :=
  ((registry.health now timeoutMs).filter fun entry => entry.2 == .silent).map (·.1.id)

/-! ## Ownership -/

/-- The member that watches the fewest groups, the first of several. -/
def leastLoaded? : List Member → Option Member
  | [] => none
  | member :: rest =>
    match leastLoaded? rest with
    | none => some member
    | some other =>
      if member.info.groups.length ≤ other.info.groups.length then some member else some other

/-- How far a list of groups has been given to nodes. -/
structure Assignment where
  registry : Registry
  /-- The groups seen so far with their owners, in order. -/
  owners : List (String × NodeId) := []
  /-- For each node with new groups: its record after the first of them, and the groups. -/
  batches : SortedMap NodeId (NodeInfo × List ChannelGroup) := .empty
  deriving Repr

/-- Gives one group to a node unless it has an owner. -/
def Assignment.give (done : Assignment) (group : ChannelGroup) : Assignment :=
  match done.registry.ownerOf group.name with
  | some owner => { done with owners := done.owners ++ [(group.name, owner)] }
  | none =>
    match leastLoaded? done.registry.members.values with
    | none => done
    | some member =>
      let id := member.info.id
      let info := { member.info with groups := member.info.groups ++ [group.name] }
      let (record, groups) := (done.batches.get? id).getD (info, [])
      { registry := {
          members := done.registry.members.insert id { member with info }
          owners := done.registry.owners.insert group.name id }
        owners := done.owners ++ [(group.name, id)]
        batches := done.batches.insert id (record, groups ++ [group]) }

/-- The commands that tell the nodes of their new groups, by node. -/
def Assignment.commands (done : Assignment) : List Command :=
  done.batches.values.map fun (record, groups) => .watch record groups

/-- Gives each group that has no owner to a node; the answer lists the owners of all. -/
def watch (groups : List ChannelGroup) : Operation Registry Assignment := do
  let registry ← get
  if registry.members.isEmpty then throw (.nodeUnavailable none .noneRegistered)
  let done := groups.foldl Assignment.give { registry }
  set done.registry
  return done

/-! ## Flush requests -/

/-- The command that has a registered node store segments. -/
def flushCommand (registry : Registry) (id : NodeId) (collection : CollectionId)
    (segments : List SegmentId) : Except Error Command :=
  match registry.node? id with
  | none => .error (.nodeUnavailable (some id) .notRegistered)
  | some node => .ok (.flush node collection segments)

/-- The node to store a segment: the one it was opened on, or else the owner of its group. -/
def flusherOf (registry : Registry) (segment : Segment) : Option NodeId :=
  match segment.node.filter fun id => (registry.node? id).isSome with
  | some id => some id
  | none => registry.ownerOf segment.group

/-- The node and the collection that a flush command is about. -/
structure FlushTarget where
  node : NodeId
  collection : CollectionId
  deriving DecidableEq, Repr

namespace FlushTarget

/-- Node first, then collection. -/
instance : Ord FlushTarget where
  compare := compareLex (compareOn FlushTarget.node) (compareOn FlushTarget.collection)

instance : Std.TransOrd FlushTarget :=
  inferInstanceAs <| Std.TransCmp
    (compareLex (compareOn FlushTarget.node) (compareOn FlushTarget.collection))

instance : Std.LawfulEqOrd FlushTarget where
  eq_of_compare {a b} h := by
    change (compare a.node b.node).then (compare a.collection b.collection) = .eq at h
    simp only [Ordering.then_eq_eq, Std.compare_eq_iff_eq] at h
    cases a
    cases b
    simp_all

end FlushTarget

/-- The segments to store, by target and in order; segments without a node are left out. -/
def flushBatches (registry : Registry) (segments : List Segment) :
    SortedMap FlushTarget (List SegmentId) :=
  segments.foldl (fun batches segment =>
    match registry.flusherOf segment with
    | none => batches
    | some node =>
      let target := ⟨node, segment.collection⟩
      batches.insert target ((batches.get? target).getD [] ++ [segment.id])) .empty

/-- The commands that ask the nodes to store segments, at most one for a node and a collection. -/
def flushCommands (registry : Registry) (segments : List Segment) : List Command :=
  (registry.flushBatches segments).toList.filterMap fun (target, ids) =>
    (registry.flushCommand target.node target.collection ids).toOption

end Registry

end IngestCoordinator
