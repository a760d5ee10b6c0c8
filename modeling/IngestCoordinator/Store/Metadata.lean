-- SUMMARY: The metadata store: collections and segments in memory, written through to a backend.
import IngestCoordinator.Collection
import IngestCoordinator.Operation
import IngestCoordinator.Segment.Basic
import IngestCoordinator.Store.Backend
import IngestCoordinator.Store.Keys

/-!
# The metadata store

Records are read from a copy in memory. A change goes to the backend first and to
the copy only once the backend has taken it, so a write that fails leaves both as
they were, and opening the store again gives the same copy.
-/

namespace IngestCoordinator

/-- The records of a store. -/
structure Records where
  collections : SortedMap CollectionId Collection := .empty
  segments : SortedMap SegmentId Segment := .empty
  deriving DecidableEq, Repr

/-- The records of a store, with the backend that keeps them and the root of their keys. -/
structure Metadata where
  backend : Backend
  root : Root
  records : Records
  deriving DecidableEq, Repr

namespace Metadata

/-- Decodes the records found by a scan. -/
def decodeAll (read? : Json → Option α) (fault : String → DecodeFault)
    (found : List (String × Bytes)) : Except Error (List α) :=
  found.mapM fun (key, text) =>
    match Json.decode read? text with
    | none => .error (.malformed (fault key))
    | some record => .ok record

/-- Reads all records below a root; of several with one number the last key's counts. -/
def load (root : Root) : Operation Backend Records := do
  let found ← Backend.scan root.collections
  let collections ← ofExcept (decodeAll Collection.ofJson? .collectionRecord found)
  let found ← Backend.scan root.segments
  let segments ← ofExcept (decodeAll Segment.ofJson? .segmentRecord found)
  return {
    collections := .ofList (collections.map fun collection => (collection.id, collection))
    segments := .ofList (segments.map fun segment => (segment.id, segment)) }

/-- Opens the store below a root of a backend. -/
def «open» (root : Root) (backend : Backend) : Except Error Metadata × Backend :=
  match load root backend with
  | .ok records backend => (.ok { backend, root, records }, backend)
  | .error error backend => (.error error, backend)

/-- Reads all records again; on failure the copy stays as it was. -/
def reopen : Operation Metadata Unit := fun store =>
  match load store.root store.backend with
  | .ok records backend => .ok () { store with backend, records }
  | .error error backend => .error error { store with backend }

/-- Makes a call to the backend. -/
def onBackend (call : Operation Backend α) : Operation Metadata α :=
  call.onPart Metadata.backend fun store backend => { store with backend }

/-- Writes a collection to the backend and then to the copy. -/
def persistCollection (collection : Collection) : Operation Metadata Unit := do
  let root := (← get).root
  onBackend (Backend.put (root.collection collection.id) collection.toJson.write)
  modify fun store =>
    { store with records.collections := store.records.collections.insert collection.id collection }

/-- Writes a segment to the backend and then to the copy. -/
def persistSegment (segment : Segment) : Operation Metadata Unit := do
  let root := (← get).root
  onBackend (Backend.put (root.segment segment.id) segment.toJson.write)
  modify fun store =>
    { store with records.segments := store.records.segments.insert segment.id segment }

/-! ## Collections -/

/-- A collection by its number. -/
def collection? (store : Metadata) (id : CollectionId) : Option Collection :=
  store.records.collections.get? id

/-- All collections, by number. -/
def collections (store : Metadata) : List Collection :=
  store.records.collections.values

/-- Adds a collection; its schema must have a row width. -/
def addCollection (collection : Collection) : Operation Metadata Unit := do
  if ((← get).collection? collection.id).isSome then
    throw (.alreadyExists (.collection collection.id))
  let _ ← ofExcept collection.schema.rowWidth
  persistCollection collection

/-- Adds a partition to a collection; one that is there already stays as it is. -/
def addPartition (id : CollectionId) (partition : PartitionId) : Operation Metadata Unit := do
  match (← get).collection? id with
  | none => throw (.notFound (.collection id))
  | some collection =>
    if collection.hasPartition partition then return
    persistCollection (collection.withPartition partition)

/-! ## Segments -/

/-- A segment by its number. -/
def segment? (store : Metadata) (id : SegmentId) : Option Segment :=
  store.records.segments.get? id

/-- All segments, by number. -/
def segments (store : Metadata) : List Segment :=
  store.records.segments.values

/-- The segments of a collection, by number. -/
def segmentsOf (store : Metadata) (collection : CollectionId) : List Segment :=
  store.segments.filter fun segment => segment.collection == collection

/-- The numbers of the segments of a partition. -/
def segmentIdsOf (store : Metadata) (collection : CollectionId) (partition : PartitionId) :
    List SegmentId :=
  ((store.segmentsOf collection).filter fun segment => segment.partition == partition).map (·.id)

/-- Adds a segment to a collection that is stored. -/
def addSegment (segment : Segment) : Operation Metadata Unit := do
  let store ← get
  if (store.collection? segment.collection).isNone then
    throw (.notFound (.collection segment.collection))
  if (store.segment? segment.id).isSome then
    throw (.alreadyExists (.segment segment.id))
  persistSegment segment

/-- Changes a stored segment; the change may refuse, and must keep the number. -/
def updateSegment (id : SegmentId) (change : Segment → Except Error Segment) :
    Operation Metadata Segment := do
  match (← get).segment? id with
  | none => throw (.notFound (.segment id))
  | some segment =>
    let updated ← ofExcept (change segment)
    if updated.id ≠ id then throw (.invalidState (.identityChanged id))
    persistSegment updated
    return updated

end Metadata

end IngestCoordinator
