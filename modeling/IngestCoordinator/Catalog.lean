-- SUMMARY: The catalog of collections, and loading it into the store.
import IngestCoordinator.Store.Guarded

/-!
# The catalog

The catalog says which collections and partitions there should be. Loading it adds
to the store what is missing and never takes anything away; a collection that
cannot be loaded is passed over, so loading again later makes up for it.
-/

namespace IngestCoordinator

/-- The contents of a catalog as they are written down. -/
structure CatalogSnapshot where
  /-- The channel that carries changes of collections to the nodes. -/
  ddChannel : String
  collections : List Collection := []
  deriving DecidableEq, Repr

namespace CatalogSnapshot

def toJson (snapshot : CatalogSnapshot) : Json :=
  .record [
    ("dd_channel", .ofString snapshot.ddChannel),
    ("collections", .ofList Collection.toJson snapshot.collections)]

def ofJson? (value : Json) : Option CatalogSnapshot := do
  let fields ← Json.Fields.ofJson? ["dd_channel", "collections"] value
  return {
    ddChannel := ← fields.required "dd_channel" Json.string?
    collections := ← fields.defaulted "collections" [] (Json.list? Collection.ofJson?) }

end CatalogSnapshot

/-- The calls to a catalog that are switched to fail. -/
structure CatalogFaults where
  ddChannel : Bool := false
  list : Bool := false
  describe : SortedSet CollectionId := .empty
  partitions : SortedSet CollectionId := .empty
  deriving DecidableEq, Repr

/-- A call to a catalog that can be switched to fail. -/
inductive CatalogSwitch where
  | ddChannel
  | list
  | describe (id : CollectionId)
  | partitions (id : CollectionId)
  deriving DecidableEq, Repr

/-- A catalog behind switches. -/
structure Catalog where
  ddChannel : String
  collections : SortedMap CollectionId Collection
  faults : CatalogFaults := {}
  deriving DecidableEq, Repr

namespace Catalog

/-- The catalog of a snapshot; of several collections with one number the last counts. -/
def ofSnapshot (snapshot : CatalogSnapshot) : Catalog where
  ddChannel := snapshot.ddChannel
  collections := .ofList (snapshot.collections.map fun collection => (collection.id, collection))

/-- Sets or clears a switch. -/
def switch (catalog : Catalog) (switch : CatalogSwitch) (on : Bool) : Catalog :=
  let faults := catalog.faults
  let toggle (ids : SortedSet CollectionId) (id : CollectionId) : SortedSet CollectionId :=
    if on then SortedSet.add ids id else ids.erase id
  { catalog with faults :=
      match switch with
      | .ddChannel => { faults with ddChannel := on }
      | .list => { faults with list := on }
      | .describe id => { faults with describe := toggle faults.describe id }
      | .partitions id => { faults with partitions := toggle faults.partitions id } }

/-- The catalog that a file holds, given its path and its contents or why it has none. -/
def ofFile (path : String) (contents : Except String Bytes) : Except Error Catalog :=
  match contents with
  | .error reason => .error (.invalidArgument (.unreadableCatalog path reason))
  | .ok text =>
    match Json.decode CatalogSnapshot.ofJson? text with
    | none => .error (.malformed .text)
    | some snapshot => .ok (ofSnapshot snapshot)

/-- Answers a call unless it is switched to fail. -/
def answer (rejected : Bool) (value : α) : Except Error α :=
  if rejected then .error (.internal .catalogRejected) else .ok value

/-- The channel that carries changes of collections. -/
def askDdChannel (catalog : Catalog) : Except Error String :=
  answer catalog.faults.ddChannel catalog.ddChannel

/-- The numbers of all collections, in order. -/
def list (catalog : Catalog) : Except Error (List CollectionId) :=
  answer catalog.faults.list catalog.collections.keys

/-- A collection by its number. -/
def collection (catalog : Catalog) (id : CollectionId) : Except Error Collection :=
  match catalog.collections.get? id with
  | none => .error (.notFound (.collection id))
  | some collection => .ok collection

/-- The schema of a collection. -/
def describe (catalog : Catalog) (id : CollectionId) : Except Error Schema := do
  answer (catalog.faults.describe.contains id) ()
  return (← catalog.collection id).schema

/-- The partitions of a collection. -/
def partitions (catalog : Catalog) (id : CollectionId) : Except Error (List PartitionId) := do
  answer (catalog.faults.partitions.contains id) ()
  return (← catalog.collection id).partitions

/-! ## Loading -/

/-- Brings one collection of the store up to the catalog. -/
def loadCollection (catalog : Catalog) (id : CollectionId) : Operation GuardedStore Unit := do
  let partitions ← ofExcept (catalog.partitions id)
  match ← ofExcept ((← get).collection? id) with
  | none =>
    let schema ← ofExcept (catalog.describe id)
    GuardedStore.addCollection { id, schema, partitions }
  | some _ => partitions.forM (GuardedStore.addPartition id)

/-- Loads collections one after another; counts those that did not fail. -/
def loadAll (catalog : Catalog) : List CollectionId → GuardedStore → Nat × GuardedStore
  | [], store => (0, store)
  | id :: ids, store =>
    match catalog.loadCollection id store with
    | .ok () store =>
      let (loaded, store) := catalog.loadAll ids store
      (loaded + 1, store)
    | .error _ store => catalog.loadAll ids store

/-- Brings the store up to the catalog; the answer is the number of collections loaded. -/
def load (catalog : Catalog) : Operation GuardedStore Nat := do
  let ids ← ofExcept catalog.list
  let (loaded, store) := catalog.loadAll ids (← get)
  set store
  return loaded

end Catalog

end IngestCoordinator
