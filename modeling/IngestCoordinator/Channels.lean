-- SUMMARY: Insert channels of collections: their names and their division into groups.
import IngestCoordinator.Operation
import IngestCoordinator.SortedMap

/-!
# Insert channels

Each collection has a fixed number of insert channels. The first request divides
them into groups, at most one for each node, by dealing out contiguous runs whose
lengths differ by at most one; the division never changes afterwards, whatever
happens to the number of nodes.
-/

namespace IngestCoordinator

/-- A run of insert channels of one collection that one node watches. -/
structure ChannelGroup where
  name : String
  collection : CollectionId
  channels : List String
  deriving DecidableEq, Repr

namespace ChannelGroup

/-- Whether a channel belongs to the group. -/
def contains (group : ChannelGroup) (channel : String) : Bool :=
  group.channels.contains channel

def toJson (group : ChannelGroup) : Json :=
  .record [
    ("name", .ofString group.name),
    ("collection_id", group.collection.toJson),
    ("channels", .ofList .ofString group.channels)]

def ofJson? (value : Json) : Option ChannelGroup := do
  let fields ← Json.Fields.ofJson? ["name", "collection_id", "channels"] value
  return {
    name := ← fields.required "name" Json.string?
    collection := ← fields.required "collection_id" Identifier.ofJson?
    channels := ← fields.required "channels" (Json.list? Json.string?) }

end ChannelGroup

/-- The division of the insert channels of each collection, as far as it has been made. -/
structure Channels where
  perCollection : UInt32
  stem : String
  groups : SortedMap CollectionId (List ChannelGroup) := .empty
  deriving Repr

namespace Channels

/-- The name of the insert channel of a collection with a number. -/
def channelName (stem : String) (collection : CollectionId) (index : Nat) : String :=
  stem ++ toString collection ++ "_" ++ toString index

/-- The name of the channel group of a collection with a number. -/
def groupName (collection : CollectionId) (index : Nat) : String :=
  toString collection ++ "-group-" ++ toString index

/-- How many of `count` channels go to the group with a number, of `groups` groups. -/
def groupSize (count groups index : Nat) : Nat :=
  count / groups + if index < count % groups then 1 else 0

/-- How many of `count` channels go to the groups before the one with a number. -/
def groupStart (count groups index : Nat) : Nat :=
  index * (count / groups) + min index (count % groups)

/-- Divides `count` channels of a collection into `groups` groups. -/
def divide (stem : String) (collection : CollectionId) (count groups : Nat) :
    List ChannelGroup :=
  (List.range groups).map fun index => {
    name := groupName collection index
    collection := collection
    channels := (List.range' (groupStart count groups index) (groupSize count groups index)).map
      (channelName stem collection) }

/-- Whether the channels of a collection have been divided. -/
def contains (channels : Channels) (collection : CollectionId) : Bool :=
  channels.groups.contains collection

/--
The groups of a collection, and whether this call has made them. A collection
that has groups keeps them; otherwise its channels are divided among the nodes.
-/
def allocate (collection : CollectionId) (nodes : Nat) :
    Operation Channels (List ChannelGroup × Bool) := do
  let channels ← get
  match channels.groups.get? collection with
  | some groups => return (groups, false)
  | none =>
    if nodes = 0 then throw (.nodeUnavailable none .noneToServe)
    let count := channels.perCollection.toNat
    if count = 0 then throw (.invalidArgument .channelsNotPositive)
    let groups := divide channels.stem collection count (min nodes count)
    set { channels with groups := channels.groups.insert collection groups }
    return (groups, true)

/-- The group of a collection that a channel belongs to. -/
def groupOf (channels : Channels) (collection : CollectionId) (channel : String) :
    Except Error ChannelGroup :=
  match channels.groups.get? collection with
  | none => .error (.invalidState (.channelsNotAllocated collection))
  | some groups =>
    match groups.find? (·.contains channel) with
    | none => .error (.notFound (.channel channel))
    | some group => .ok group

end Channels

end IngestCoordinator
