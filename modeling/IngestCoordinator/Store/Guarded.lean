-- SUMMARY: A metadata store whose calls can be made to fail or to answer from the past.
import IngestCoordinator.Store.Metadata

/-!
# Guarded stores

The metadata store as the coordinator sees it. Single calls can be switched to
fail before they reach the store; reads of a segment can also be switched to find
nothing, or to keep finding what was there when the switch was set.
-/

namespace IngestCoordinator

/-- The calls that are switched to fail or to answer wrongly. -/
structure StoreFaults where
  update : SortedSet SegmentId := .empty
  read : SortedSet SegmentId := .empty
  hidden : SortedSet SegmentId := .empty
  stale : SortedMap SegmentId (Option Segment) := .empty
  list : Bool := false
  readCollection : Bool := false
  deriving DecidableEq, Repr

/-- A metadata store behind switches. -/
structure GuardedStore where
  metadata : Metadata
  faults : StoreFaults := {}
  deriving DecidableEq, Repr

/-- A call that can be switched to fail or to answer wrongly. -/
inductive StoreSwitch where
  | update (id : SegmentId)
  | read (id : SegmentId)
  | hidden (id : SegmentId)
  | stale (id : SegmentId)
  | list
  | readCollection
  deriving DecidableEq, Repr

namespace GuardedStore

/-- Sets or clears a switch; stale reads of a segment find what is stored now. -/
def switch (store : GuardedStore) (switch : StoreSwitch) (on : Bool) : GuardedStore :=
  let faults := store.faults
  let toggle (ids : SortedSet SegmentId) (id : SegmentId) : SortedSet SegmentId :=
    if on then SortedSet.add ids id else ids.erase id
  { store with faults :=
      match switch with
      | .update id => { faults with update := toggle faults.update id }
      | .read id => { faults with read := toggle faults.read id }
      | .hidden id => { faults with hidden := toggle faults.hidden id }
      | .stale id =>
        { faults with stale :=
            if on then faults.stale.insert id (store.metadata.segment? id)
            else faults.stale.erase id }
      | .list => { faults with list := on }
      | .readCollection => { faults with readCollection := on } }

/-- Makes a call to the store. -/
def onMetadata (call : Operation Metadata α) : Operation GuardedStore α :=
  call.onPart GuardedStore.metadata fun store metadata => { store with metadata }

/-- A collection by its number. -/
def collection? (store : GuardedStore) (id : CollectionId) : Except Error (Option Collection) :=
  if store.faults.readCollection then .error (.storeUnavailable .readRejected)
  else .ok (store.metadata.collection? id)

/-- All collections, by number. -/
def collections (store : GuardedStore) : List Collection :=
  store.metadata.collections

/-- Adds a collection. -/
def addCollection (collection : Collection) : Operation GuardedStore Unit :=
  onMetadata (Metadata.addCollection collection)

/-- Adds a partition to a collection. -/
def addPartition (id : CollectionId) (partition : PartitionId) :
    Operation GuardedStore Unit :=
  onMetadata (Metadata.addPartition id partition)

/-- A segment by its number. -/
def segment? (store : GuardedStore) (id : SegmentId) : Except Error (Option Segment) :=
  if store.faults.read.contains id then .error (.storeUnavailable .readRejected)
  else if store.faults.hidden.contains id then .ok none
  else
    match store.faults.stale.get? id with
    | some found => .ok found
    | none => .ok (store.metadata.segment? id)

/-- Adds a segment. -/
def addSegment (segment : Segment) : Operation GuardedStore Unit :=
  onMetadata (Metadata.addSegment segment)

/-- Changes a stored segment. -/
def updateSegment (id : SegmentId) (change : Segment → Except Error Segment) :
    Operation GuardedStore Segment := do
  if (← get).faults.update.contains id then throw (.storeUnavailable .writeRejected)
  onMetadata (Metadata.updateSegment id change)

/-- All segments, by number. -/
def segments (store : GuardedStore) : Except Error (List Segment) :=
  if store.faults.list then .error (.storeUnavailable .listRejected)
  else .ok store.metadata.segments

/-- The segments of a collection, by number. -/
def segmentsOf (store : GuardedStore) (collection : CollectionId) :
    Except Error (List Segment) :=
  if store.faults.list then .error (.storeUnavailable .listRejected)
  else .ok (store.metadata.segmentsOf collection)

/-- The numbers of the segments of a partition. -/
def segmentIdsOf (store : GuardedStore) (collection : CollectionId) (partition : PartitionId) :
    Except Error (List SegmentId) :=
  if store.faults.list then .error (.storeUnavailable .listRejected)
  else .ok (store.metadata.segmentIdsOf collection partition)

end GuardedStore

end IngestCoordinator
