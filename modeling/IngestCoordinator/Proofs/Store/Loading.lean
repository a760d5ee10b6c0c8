-- SUMMARY: Loading a catalog brings a store to one state, however often loads before have failed half-way.
import IngestCoordinator.Proofs.Store.Guarded
import IngestCoordinator.Proofs.Store.WriteThrough

/-!
# Loading a catalog

A catalog says for each collection what it intends: partitions that are missing are
appended to a stored collection, and a collection that is not stored is added if its
schema is valid. Every write that a load makes leaves the intention as it is, also those
of a load that fails half-way. So loads can be repeated, and the first that is not
disturbed arrives where an undisturbed one would have arrived at once.
-/

namespace IngestCoordinator

open Operation

/-! ## Partitions -/

namespace Collection

variable {collection : Collection} {partitions partitions' : List PartitionId}
  {partition : PartitionId}

/-- The collection with some partitions added one after another. -/
def grown (collection : Collection) (partitions : List PartitionId) : Collection :=
  partitions.foldl withPartition collection

theorem hasPartition_iff : collection.hasPartition partition = true ↔
    partition ∈ collection.partitions :=
  List.contains_iff_mem

/-- The partitions stay in order, followed by the missing ones in their order, each once. -/
theorem grown_eq (collection : Collection) (partitions : List PartitionId) :
    collection.grown partitions = { collection with
      partitions := collection.partitions ++
        (partitions.filter fun partition => partition ∉ collection.partitions).eraseDups } := by
  induction partitions generalizing collection with
  | nil => simp [grown]
  | cons partition partitions ih =>
    change (collection.withPartition partition).grown partitions = _
    rw [ih, withPartition]
    split
    · rename_i hmem
      rw [hasPartition_iff] at hmem
      simp [hmem]
    · rename_i hnew
      rw [hasPartition_iff] at hnew
      have hrest : (partitions.filter fun other => other ∉ collection.partitions ++ [partition]) =
          (partitions.filter fun other => other ∉ collection.partitions).filter
            fun other => !other == partition := by
        rw [List.filter_filter]
        congr 1
        funext other
        simp [Bool.beq_eq_decide_eq, Bool.and_comm]
      simp only [hrest]
      rw [List.filter_cons_of_pos (by simpa using hnew), List.eraseDups_cons]
      simp

theorem grown_id (collection : Collection) (partitions : List PartitionId) :
    (collection.grown partitions).id = collection.id := by
  rw [grown_eq]

theorem mem_grown : partition ∈ (collection.grown partitions).partitions ↔
    partition ∈ collection.partitions ∨ partition ∈ partitions := by
  by_cases hmem : partition ∈ collection.partitions <;> simp [grown_eq, hmem]

theorem grown_append : collection.grown (partitions ++ partitions') =
    (collection.grown partitions).grown partitions' :=
  List.foldl_append

theorem grown_of_forall_mem (h : ∀ partition ∈ partitions, partition ∈ collection.partitions) :
    collection.grown partitions = collection := by
  have hmissing : (partitions.filter fun partition => partition ∉ collection.partitions) = [] := by
    simpa using h
  rw [grown_eq, hmissing, List.eraseDups_nil, List.append_nil]

/-- What has been added before is not added again. -/
theorem grown_grown (h : partitions <+: partitions') :
    (collection.grown partitions).grown partitions' = collection.grown partitions' := by
  obtain ⟨rest, rfl⟩ := h
  have hagain : (collection.grown partitions).grown partitions = collection.grown partitions :=
    grown_of_forall_mem fun partition hmem => mem_grown.2 (.inr hmem)
  rw [grown_append, hagain, grown_append]

end Collection

/-! ## Intentions -/

namespace Catalog

variable {catalog : Catalog} {id : CollectionId} {wanted : Collection}

/-- Every call to the catalog is answered, and collections have the numbers they are found by. -/
structure Plain (catalog : Catalog) : Prop where
  faults : catalog.faults = {}
  numbered : ∀ {id wanted}, catalog.collections.get? id = some wanted → wanted.id = id

theorem plain_ofSnapshot (snapshot : CatalogSnapshot) : (ofSnapshot snapshot).Plain where
  faults := rfl
  numbered hget := by
    obtain ⟨wanted, -, heq⟩ := List.mem_map.1 (SortedMap.mem_of_get?_ofList hget)
    cases heq
    rfl

/-- What the catalog intends for a collection that is stored, or is not. -/
def intended (catalog : Catalog) (id : CollectionId) : Option Collection → Option Collection
  | some stored =>
    match catalog.collections.get? id with
    | none => some stored
    | some wanted => some (stored.grown wanted.partitions)
  | none => (catalog.collections.get? id).filter fun wanted => wanted.schema.rowWidth.isOk

theorem intended_of_absent (h : catalog.collections.get? id = none) (found : Option Collection) :
    catalog.intended id found = found := by
  cases found <;> simp [intended, h]

theorem intended_some (h : catalog.collections.get? id = some wanted) (stored : Collection) :
    catalog.intended id (some stored) = some (stored.grown wanted.partitions) := by
  simp [intended, h]

theorem intended_none (h : catalog.collections.get? id = some wanted) :
    catalog.intended id none = if wanted.schema.rowWidth.isOk then some wanted else none := by
  simp [intended, h, Option.filter]

/-- Nothing more is intended once all is as it was intended. -/
theorem intended_intended (found : Option Collection) :
    catalog.intended id (catalog.intended id found) = catalog.intended id found := by
  cases hget : catalog.collections.get? id with
  | none => rw [intended_of_absent hget, intended_of_absent hget]
  | some wanted =>
    cases found with
    | some stored =>
      simp only [intended_some hget]
      rw [Collection.grown_grown (List.prefix_refl _)]
    | none =>
      rw [intended_none hget]
      split
      · rw [intended_some hget, Collection.grown_of_forall_mem fun _ hmem => hmem]
      · rename_i hinvalid
        rw [intended_none hget, if_neg hinvalid]

end Catalog

/-! ## Single calls -/

/-- Collections are found under their own numbers. -/
def Metadata.Filed (m : Metadata) : Prop :=
  ∀ id collection, m.collection? id = some collection → collection.id = id

/-- So they are in every store that has been opened, whatever lay in the backend. -/
theorem Metadata.filed_of_open {m : Metadata} {root : Root} {b b' : Backend}
    (hopen : Metadata.open root b = (.ok m, b')) : m.Filed := by
  obtain ⟨-, collections, segments, -, -, hrecords⟩ :=
    (Metadata.ensures_load root).ok (load_of_open hopen).1
  intro id collection hget
  rw [collection?, hrecords] at hget
  obtain ⟨listed, -, heq⟩ := List.mem_map.1 (SortedMap.mem_of_get?_ofList hget)
  cases heq
  rfl

/-- And so they are whatever the store is asked to do then. -/
theorem Metadata.WrittenThrough.filed {m : Metadata} (h : m.WrittenThrough) : m.Filed :=
  fun _ _ hget => h.collections.numbered hget

namespace GuardedStore

variable {store store' store'' : GuardedStore} {id : CollectionId}
  {collection collection' : Collection}

/-- Of all that is stored, at most one collection is other than it was. -/
structure Sets (id : CollectionId) (collection : Collection) (store store' : GuardedStore) :
    Prop where
  collection? : ∀ id', store'.metadata.collection? id' =
    if id' = id then some collection else store.metadata.collection? id'
  kept : store.KeepsSegments store'

theorem Sets.get? (h : Sets id collection store store') :
    store'.metadata.collection? id = some collection := by
  rw [h.collection?, if_pos rfl]

theorem Sets.trans (h : Sets id collection store store') (h' : Sets id collection' store' store'') :
    Sets id collection' store store'' where
  collection? id' := by
    rw [h'.collection?, h.collection?]
    split <;> rfl
  kept := h.kept.trans h'.kept

theorem sets_of_untouched {m : Metadata} (hget : store.metadata.collection? id = some collection)
    (h : store.metadata.Untouched m) : Sets id collection store { store with metadata := m } where
  collection? id' := by
    change m.records.collections.get? id' = _
    rw [h.records]
    split
    · rename_i heq
      rw [heq]
      exact hget
    · rfl
  kept := ⟨h.sameRecords, h.healthy, rfl⟩

theorem sets_of_stored {m : Metadata} (h : Metadata.StoredCollection collection store.metadata m) :
    Sets collection.id collection store { store with metadata := m } where
  collection? id' := by
    change m.records.collections.get? id' = _
    rw [h.collections]
    exact SortedMap.get?_insert ..
  kept := ⟨h.sameRecords, h.healthy, rfl⟩

theorem ensures_addPartition_sets (hget : store.metadata.collection? id = some collection)
    (hid : collection.id = id) (partition : PartitionId) :
    Ensures (addPartition id partition) store
      (fun _ store' => Sets id (collection.withPartition partition) store store')
      (fun _ store' => Sets id collection store store' ∧ ¬ store.metadata.backend.Healthy) := by
  rw [addPartition, onMetadata, ensures_onPart, Metadata.addPartition, ensures_bind, ensures_get]
  simp only [hget]
  split
  · rename_i hhas
    rw [Collection.withPartition, if_pos hhas]
    exact sets_of_untouched hget (.refl _)
  · have hid' : (collection.withPartition partition).id = id := by
      rw [Collection.withPartition]
      split <;> exact hid
    apply (Metadata.ensures_persistCollection _).imp
    · intro _ m h
      exact hid' ▸ sets_of_stored h
    · intro _ m h
      exact ⟨sets_of_untouched hget h.1, h.2⟩

/-- Partitions are added in order, up to the first that the backend does not take. -/
theorem ensures_addPartitions_sets (hget : store.metadata.collection? id = some collection)
    (hid : collection.id = id) (partitions : List PartitionId) :
    Ensures (partitions.forM (addPartition id)) store
      (fun _ store' => Sets id (collection.grown partitions) store store')
      (fun _ store' => (∃ done, done <+: partitions ∧ Sets id (collection.grown done) store store') ∧
        ¬ store.metadata.backend.Healthy) := by
  induction partitions generalizing store collection with
  | nil => exact sets_of_untouched hget (.refl _)
  | cons partition partitions ih =>
    rw [List.forM, ensures_bind]
    apply (ensures_addPartition_sets hget hid partition).imp
    · intro _ store' hsets
      have hid' : (collection.withPartition partition).id = id :=
        (Collection.grown_id collection [partition]).trans hid
      apply (ih hsets.get? hid').imp
      · exact fun _ _ hrest => hsets.trans hrest
      · rintro _ _ ⟨⟨done, hprefix, hrest⟩, hill⟩
        refine ⟨⟨partition :: done, ?_, hsets.trans hrest⟩, fun hhealthy => hill ?_⟩
        · exact List.cons_prefix_cons.2 ⟨rfl, hprefix⟩
        · exact hsets.kept.healthy hhealthy
    · rintro _ _ ⟨hsame, hill⟩
      exact ⟨⟨[], List.nil_prefix, hsame⟩, hill⟩

/-- Where all partitions are there already, nothing is written. -/
theorem addPartitions_of_mem (hget : store.metadata.collection? id = some collection)
    {partitions : List PartitionId} (h : ∀ partition ∈ partitions, partition ∈ collection.partitions) :
    partitions.forM (addPartition id) store = .ok () store := by
  apply eq_ok_of_ensures
  induction partitions with
  | nil => exact ⟨rfl, rfl⟩
  | cons partition partitions ih =>
    obtain ⟨hfirst, hrest⟩ := List.forall_mem_cons.1 h
    rw [← Collection.hasPartition_iff] at hfirst
    rw [List.forM, ensures_bind, addPartition, onMetadata, ensures_onPart, Metadata.addPartition,
      ensures_bind, ensures_get, hget]
    simp only [hfirst, if_true, ensures_pure]
    exact (ih hrest).imp (fun _ _ hdone => ⟨trivial, hdone.2⟩) fun _ _ hfailed => hfailed

theorem ensures_addCollection_sets (hnone : store.metadata.collection? collection.id = none) :
    Ensures (addCollection collection) store
      (fun _ store' => Sets collection.id collection store store' ∧
        collection.schema.rowWidth.isOk = true)
      (fun _ store' => store.metadata.Untouched store'.metadata ∧ store'.faults = store.faults ∧
        (store.metadata.backend.Healthy → collection.schema.rowWidth.isOk = false)) := by
  rw [addCollection, onMetadata, ensures_onPart]
  rw [Metadata.addCollection, ensures_bind, ensures_get, hnone]
  simp only [Option.isSome_none, Bool.false_eq_true, if_false, ensures_bind, ensures_ofExcept]
  constructor
  · intro width hwidth
    have hvalid : collection.schema.rowWidth.isOk = true := by rw [hwidth]; rfl
    apply (Metadata.ensures_persistCollection collection).imp
    · exact fun _ m h => ⟨sets_of_stored h, hvalid⟩
    · exact fun _ m h => ⟨h.1, trivial, fun hhealthy => absurd hhealthy h.2⟩
  · intro e hinvalid
    exact ⟨.refl _, trivial, fun _ => by rw [hinvalid]; rfl⟩

end GuardedStore

/-! ## One collection -/

namespace Catalog

open GuardedStore

variable {catalog : Catalog} {id : CollectionId} {wanted : Collection} {ids : List CollectionId}
  {store store' : GuardedStore}

/-- Nothing has been stored but what is intended for one collection, or part of it. -/
structure Nears (catalog : Catalog) (id : CollectionId) (store store' : GuardedStore) : Prop where
  intended : catalog.intended id (store'.metadata.collection? id) =
    catalog.intended id (store.metadata.collection? id)
  others : ∀ id', id' ≠ id → store'.metadata.collection? id' = store.metadata.collection? id'
  filed : store.metadata.Filed → store'.metadata.Filed
  kept : store.KeepsSegments store'

theorem nears_of_untouched (h : store.metadata.Untouched store'.metadata)
    (hfaults : store'.faults = store.faults) : Nears catalog id store store' := by
  have hsame (id' : CollectionId) :
      store'.metadata.collection? id' = store.metadata.collection? id' := by
    rw [Metadata.collection?, h.records, Metadata.collection?]
  refine ⟨by rw [hsame], fun id' _ => hsame id', fun hfiled id' collection hget => ?_,
    ⟨h.sameRecords, h.healthy, hfaults⟩⟩
  rw [hsame] at hget
  exact hfiled id' collection hget

theorem nears_of_sets {collection : Collection} (h : Sets id collection store store')
    (hid : collection.id = id) (hintended : catalog.intended id (some collection) =
      catalog.intended id (store.metadata.collection? id)) : Nears catalog id store store' := by
  refine ⟨by rw [h.get?, hintended], fun id' hne => by rw [h.collection?, if_neg hne],
    fun hfiled id' other hget => ?_, h.kept⟩
  rw [h.collection?] at hget
  split at hget
  · rename_i heq
    cases hget
    exact hid.trans heq.symm
  · exact hfiled id' other hget

section

variable (hplain : catalog.Plain) (hwanted : catalog.collections.get? id = some wanted)
  (hreads : store.faults.readCollection = false)

include hplain hwanted hreads

theorem loadCollection_none (hnone : store.metadata.collection? id = none) :
    catalog.loadCollection id store = addCollection wanted store := by
  have hread : store.collection? id = .ok none := by
    simp [GuardedStore.collection?, hreads, hnone]
  have hpartitions : catalog.partitions id = .ok wanted.partitions := by
    rw [partitions, hplain.faults, Catalog.collection, hwanted]
    rfl
  have hschema : catalog.describe id = .ok wanted.schema := by
    rw [describe, hplain.faults, Catalog.collection, hwanted]
    rfl
  have hnew : (⟨id, wanted.schema, wanted.partitions⟩ : Collection) = wanted := by
    rw [← hplain.numbered hwanted]
  rw [loadCollection, hpartitions, hschema]
  change EStateM.bind (ofExcept (store.collection? id)) _ store = _
  rw [hread]
  change addCollection ⟨id, wanted.schema, wanted.partitions⟩ store = _
  rw [hnew]

theorem loadCollection_some {stored : Collection}
    (hstored : store.metadata.collection? id = some stored) :
    catalog.loadCollection id store = wanted.partitions.forM (addPartition id) store := by
  have hread : store.collection? id = .ok (some stored) := by
    simp [GuardedStore.collection?, hreads, hstored]
  have hpartitions : catalog.partitions id = .ok wanted.partitions := by
    rw [partitions, hplain.faults, Catalog.collection, hwanted]
    rfl
  rw [loadCollection, hpartitions]
  change EStateM.bind (ofExcept (store.collection? id)) _ store = _
  rw [hread]
  rfl

/--
To load a collection is to store what is intended for it. What fails before is part of
that, and on a healthy backend nothing fails but the adding of an invalid schema.
-/
theorem ensures_loadCollection_nears (hfiled : store.metadata.Filed) :
    Ensures (catalog.loadCollection id) store
      (fun _ store' => Nears catalog id store store' ∧
        store'.metadata.collection? id = catalog.intended id (store.metadata.collection? id) ∧
        (store'.metadata.collection? id).isSome = true)
      (fun _ store' => Nears catalog id store store' ∧ (store.metadata.backend.Healthy →
        store'.metadata.collection? id = catalog.intended id (store.metadata.collection? id) ∧
        (store'.metadata.collection? id).isSome = false)) := by
  have hid : wanted.id = id := hplain.numbered hwanted
  cases hfound : store.metadata.collection? id with
  | none =>
    rw [Ensures, loadCollection_none hplain hwanted hreads hfound, intended_none hwanted]
    subst hid
    apply (ensures_addCollection_sets hfound).imp
    · rintro _ store' ⟨hsets, hvalid⟩
      rw [hvalid, hsets.get?]
      refine ⟨nears_of_sets hsets rfl ?_, rfl, rfl⟩
      rw [intended_some hwanted, Collection.grown_of_forall_mem fun _ hmem => hmem, hfound,
        intended_none hwanted, hvalid]
      rfl
    · rintro _ store' ⟨huntouched, hfaults, hinvalid⟩
      have hsame : store'.metadata.collection? wanted.id = none := by
        rw [Metadata.collection?, huntouched.records]
        exact hfound
      refine ⟨nears_of_untouched huntouched hfaults, fun hhealthy => ?_⟩
      rw [hinvalid hhealthy, hsame]
      exact ⟨rfl, rfl⟩
  | some stored =>
    have hstored : stored.id = id := hfiled id stored hfound
    -- The collection has grown by all that is wanted, or by the first part of it.
    have hgrown {done : List PartitionId} {store' : GuardedStore} (hdone : done <+: wanted.partitions)
        (hsets : Sets id (stored.grown done) store store') : Nears catalog id store store' := by
      apply nears_of_sets hsets ((Collection.grown_id ..).trans hstored)
      rw [hfound, intended_some hwanted, intended_some hwanted, Collection.grown_grown hdone]
    rw [Ensures, loadCollection_some hplain hwanted hreads hfound, intended_some hwanted]
    apply (ensures_addPartitions_sets hfound hstored wanted.partitions).imp
    · intro _ store' hsets
      exact ⟨hgrown (List.prefix_refl _) hsets, hsets.get?, by rw [hsets.get?]; rfl⟩
    · rintro _ store' ⟨⟨done, hdone, hsets⟩, hill⟩
      exact ⟨hgrown hdone hsets, fun hhealthy => absurd hhealthy hill⟩

/-- Where all is as intended, loading does nothing at all, and fails only for what stays absent. -/
theorem loadCollection_of_reached (hreached : catalog.intended id (store.metadata.collection? id) =
    store.metadata.collection? id) :
    if (store.metadata.collection? id).isSome then catalog.loadCollection id store = .ok () store
    else ∃ e, catalog.loadCollection id store = .error e store := by
  cases hfound : store.metadata.collection? id with
  | none =>
    rw [hfound, intended_none hwanted] at hreached
    rw [loadCollection_none hplain hwanted hreads hfound]
    cases hwidth : wanted.schema.rowWidth with
    | ok width =>
      rw [hwidth] at hreached
      cases hreached
    | error e =>
      refine ⟨e, eq_error_of_ensures ?_⟩
      have hnone : store.metadata.collection? wanted.id = none := by
        rw [hplain.numbered hwanted, hfound]
      simp [addCollection, onMetadata, Metadata.addCollection, hnone, hwidth]
  | some stored =>
    rw [hfound, intended_some hwanted] at hreached
    have hall : ∀ partition ∈ wanted.partitions, partition ∈ stored.partitions := by
      intro partition hmem
      rw [← Option.some.inj hreached]
      exact Collection.mem_grown.2 (.inr hmem)
    rw [loadCollection_some hplain hwanted hreads hfound]
    exact addPartitions_of_mem hfound hall

end

/-! ## All collections -/

theorem loadAll_of_ok (h : catalog.loadCollection id store = .ok () store') :
    catalog.loadAll (id :: ids) store =
      ((catalog.loadAll ids store').1 + 1, (catalog.loadAll ids store').2) := by
  rw [loadAll, h]

theorem loadAll_of_error {e : Error} (h : catalog.loadCollection id store = .error e store') :
    catalog.loadAll (id :: ids) store = catalog.loadAll ids store' := by
  rw [loadAll, h]

theorem load_eq (hplain : catalog.Plain) (store : GuardedStore) :
    catalog.load store = .ok (catalog.loadAll catalog.collections.keys store).1
      (catalog.loadAll catalog.collections.keys store).2 := by
  apply eq_ok_of_ensures
  simp [load, list, answer, hplain.faults]

/-- The collections of the catalog are as intended, and all others as they were. -/
structure Arrives (catalog : Catalog) (ids : List CollectionId) (store : GuardedStore) (count : Nat)
    (after : GuardedStore) : Prop where
  reached : ∀ id ∈ ids, after.metadata.collection? id =
    catalog.intended id (store.metadata.collection? id)
  others : ∀ id, id ∉ ids → after.metadata.collection? id = store.metadata.collection? id
  count : count = (ids.filter fun id => (after.metadata.collection? id).isSome).length

theorem Arrives.nil (catalog : Catalog) (store : GuardedStore) : Arrives catalog [] store 0 store where
  reached := by simp
  others _ _ := rfl
  count := rfl

theorem Arrives.cons {count : Nat} {after : GuardedStore} (hnears : Nears catalog id store store')
    (hreached : store'.metadata.collection? id =
      catalog.intended id (store.metadata.collection? id)) (hfresh : id ∉ ids)
    (h : Arrives catalog ids store' count after) :
    Arrives catalog (id :: ids) store
      (count + if (store'.metadata.collection? id).isSome then 1 else 0) after where
  reached id' hmem := by
    rcases List.mem_cons.1 hmem with rfl | hmem
    · rw [h.others _ hfresh, hreached]
    · rw [h.reached _ hmem, hnears.others _ (ne_of_mem_of_not_mem hmem hfresh)]
  others id' hother := by
    obtain ⟨hne, hother⟩ := not_or.1 (List.mem_cons.not.1 hother)
    rw [h.others _ hother, hnears.others _ hne]
  count := by
    rw [h.count, List.filter_cons, h.others _ hfresh]
    split <;> simp

section

variable (hplain : catalog.Plain)
  (hlisted : ∀ id ∈ ids, ∃ wanted, catalog.collections.get? id = some wanted)
  (hreads : store.faults.readCollection = false)

include hplain hlisted hreads

/-- On a healthy backend all collections arrive, one after another. -/
theorem arrives_loadAll (hnodup : ids.Nodup) (hfiled : store.metadata.Filed)
    (hhealthy : store.metadata.backend.Healthy) :
    Arrives catalog ids store (catalog.loadAll ids store).1 (catalog.loadAll ids store).2 := by
  induction ids generalizing store with
  | nil => exact .nil catalog store
  | cons id ids ih =>
    obtain ⟨hfresh, hnodup⟩ := List.nodup_cons.1 hnodup
    obtain ⟨⟨wanted, hwanted⟩, hlisted⟩ := List.forall_mem_cons.1 hlisted
    have hrest {store' : GuardedStore} (hnears : Nears catalog id store store') :
        Arrives catalog ids store' (catalog.loadAll ids store').1 (catalog.loadAll ids store').2 :=
      ih hlisted (hnears.kept.faults ▸ hreads) hnodup (hnears.filed hfiled)
        (hnears.kept.healthy hhealthy)
    have hload := ensures_loadCollection_nears hplain hwanted hreads hfiled
    unfold Ensures at hload
    split at hload
    · rename_i store' heq
      obtain ⟨hnears, hreached, hsome⟩ := hload
      have harrives := (hrest hnears).cons hnears hreached hfresh
      rw [hsome, if_pos rfl] at harrives
      rw [loadAll_of_ok heq]
      exact harrives
    · rename_i e store' heq
      obtain ⟨hnears, hfailed⟩ := hload
      obtain ⟨hreached, hnone⟩ := hfailed hhealthy
      have harrives := (hrest hnears).cons hnears hreached hfresh
      rw [hnone] at harrives
      rw [loadAll_of_error heq]
      exact harrives

/-- Where all collections have arrived, loading them again writes nothing, and counts the same. -/
theorem loadAll_of_reached (hreached : ∀ id ∈ ids,
    catalog.intended id (store.metadata.collection? id) = store.metadata.collection? id) :
    catalog.loadAll ids store =
      ((ids.filter fun id => (store.metadata.collection? id).isSome).length, store) := by
  induction ids with
  | nil => rfl
  | cons id ids ih =>
    obtain ⟨⟨wanted, hwanted⟩, hlisted⟩ := List.forall_mem_cons.1 hlisted
    obtain ⟨hfirst, hreached⟩ := List.forall_mem_cons.1 hreached
    have hload := loadCollection_of_reached hplain hwanted hreads hfirst
    split at hload
    · rename_i hsome
      rw [loadAll_of_ok hload, ih hlisted hreached, List.filter_cons, if_pos hsome]
      rfl
    · rename_i hnone
      obtain ⟨e, hload⟩ := hload
      rw [loadAll_of_error hload, ih hlisted hreached, List.filter_cons, if_neg hnone]

end

/-! ## Disturbed loads -/

/-- Whatever has been stored has been intended, in whole or in part. -/
structure Approaches (catalog : Catalog) (store store' : GuardedStore) : Prop where
  intended : ∀ id, catalog.intended id (store'.metadata.collection? id) =
    catalog.intended id (store.metadata.collection? id)
  filed : store.metadata.Filed → store'.metadata.Filed
  faults : store'.faults = store.faults

theorem Approaches.refl (catalog : Catalog) (store : GuardedStore) :
    Approaches catalog store store :=
  ⟨fun _ => rfl, fun h => h, rfl⟩

theorem Approaches.trans {store'' : GuardedStore} (h : Approaches catalog store store')
    (h' : Approaches catalog store' store'') : Approaches catalog store store'' where
  intended id := (h'.intended id).trans (h.intended id)
  filed := h'.filed ∘ h.filed
  faults := h'.faults.trans h.faults

theorem Nears.approaches (h : Nears catalog id store store') : Approaches catalog store store' where
  intended id' := by
    by_cases hid : id' = id
    · rw [hid, h.intended]
    · rw [h.others id' hid]
  filed := h.filed
  faults := h.kept.faults

theorem approaches_loadAll (hplain : catalog.Plain)
    (hlisted : ∀ id ∈ ids, ∃ wanted, catalog.collections.get? id = some wanted)
    (hreads : store.faults.readCollection = false) (hfiled : store.metadata.Filed) :
    Approaches catalog store (catalog.loadAll ids store).2 := by
  induction ids generalizing store with
  | nil => exact .refl catalog store
  | cons id ids ih =>
    obtain ⟨⟨wanted, hwanted⟩, hlisted⟩ := List.forall_mem_cons.1 hlisted
    have hrest {store' : GuardedStore} (hnears : Nears catalog id store store') :
        Approaches catalog store (catalog.loadAll ids store').2 :=
      hnears.approaches.trans
        (ih hlisted (hnears.kept.faults ▸ hreads) (hnears.filed hfiled))
    have hload := ensures_loadCollection_nears hplain hwanted hreads hfiled
    unfold Ensures at hload
    split at hload
    · rename_i store' heq
      rw [loadAll_of_ok heq]
      exact hrest hload.1
    · rename_i e store' heq
      rw [loadAll_of_error heq]
      exact hrest hload.1

theorem listed_keys (catalog : Catalog) : ∀ id ∈ catalog.collections.keys,
    ∃ wanted, catalog.collections.get? id = some wanted :=
  fun _ hmem => SortedMap.mem_keys_iff.1 hmem

/-- The catalog is loaded, or from now on the backend refuses other calls than before. -/
inductive Disturbs (catalog : Catalog) : GuardedStore → GuardedStore → Prop where
  | load {store : GuardedStore} : Disturbs catalog store (catalog.load.attempt store).2
  | weather {store : GuardedStore} {b : Backend}
    (h : b.entries = store.metadata.backend.entries) :
    Disturbs catalog store { store with metadata.backend := b }

theorem Disturbs.approaches (h : Disturbs catalog store store') (hplain : catalog.Plain)
    (hreads : store.faults.readCollection = false) (hfiled : store.metadata.Filed) :
    Approaches catalog store store' := by
  cases h with
  | load =>
    rw [attempt, load_eq hplain]
    exact approaches_loadAll hplain (listed_keys catalog) hreads hfiled
  | weather h => exact ⟨fun _ => rfl, fun hfiled => hfiled, rfl⟩

theorem approaches_of_disturbed (h : Relation.ReflTransGen (Disturbs catalog) store store')
    (hplain : catalog.Plain) (hreads : store.faults.readCollection = false)
    (hfiled : store.metadata.Filed) : Approaches catalog store store' := by
  induction h with
  | refl => exact .refl catalog store
  | tail _ hstep ih =>
    exact ih.trans (hstep.approaches hplain (ih.faults ▸ hreads) (ih.filed hfiled))

/-! ## Loading -/

theorem exists_load (hplain : catalog.Plain) (hreads : store.faults.readCollection = false)
    (hfiled : store.metadata.Filed) (hhealthy : store.metadata.backend.Healthy) :
    ∃ count after, catalog.load store = .ok count after ∧
      (∀ id, after.metadata.collection? id =
        catalog.intended id (store.metadata.collection? id)) ∧
      count = (catalog.collections.keys.filter fun id =>
        (after.metadata.collection? id).isSome).length := by
  have harrives := arrives_loadAll hplain (listed_keys catalog) hreads
    catalog.collections.nodup_keys hfiled hhealthy
  refine ⟨_, _, load_eq hplain store, fun id => ?_, harrives.count⟩
  by_cases hmem : id ∈ catalog.collections.keys
  · exact harrives.reached id hmem
  · rw [harrives.others id hmem, intended_of_absent]
    rw [SortedMap.mem_keys_iff, not_exists] at hmem
    exact Option.eq_none_iff_forall_ne_some.2 hmem

/--
On a healthy backend, loading a catalog keeps every stored collection, with the missing
partitions appended in the order of the catalog. It adds the collections that are not
stored as they are, but for those with an invalid schema, and touches nothing else. The
answer counts the collections of the catalog that are stored then. Loading again answers
the same and makes no call to the backend, so it does not matter what that would refuse by
now. And if loads have failed at any points before, with whatever they have got done, a
load on a healthy backend arrives at the same collections.
-/
theorem load_converges (snapshot : CatalogSnapshot) (hfiled : store.metadata.Filed)
    (hreads : store.faults.readCollection = false) (hhealthy : store.metadata.backend.Healthy) :
    let catalog := ofSnapshot snapshot
    ∃ count after, catalog.load store = .ok count after ∧
      (∀ id wanted stored, catalog.collections.get? id = some wanted →
        store.metadata.collection? id = some stored →
        after.metadata.collection? id = some { stored with
          partitions := stored.partitions ++ (wanted.partitions.filter
            fun partition => partition ∉ stored.partitions).eraseDups }) ∧
      (∀ id wanted, catalog.collections.get? id = some wanted →
        store.metadata.collection? id = none →
        after.metadata.collection? id =
          if wanted.schema.rowWidth.isOk then some wanted else none) ∧
      (∀ id, catalog.collections.get? id = none →
        after.metadata.collection? id = store.metadata.collection? id) ∧
      after.metadata.records.segments = store.metadata.records.segments ∧
      count = (catalog.collections.keys.filter fun id =>
        (after.metadata.collection? id).isSome).length ∧
      (∀ backend, catalog.load { after with metadata.backend := backend } =
        .ok count { after with metadata.backend := backend }) ∧
      ∀ disturbed, Relation.ReflTransGen (Disturbs catalog) store disturbed →
        disturbed.metadata.backend.Healthy →
        ∃ later, catalog.load disturbed = .ok count later ∧
          later.metadata.records.collections = after.metadata.records.collections := by
  intro catalog
  have hplain : catalog.Plain := plain_ofSnapshot snapshot
  obtain ⟨count, after, hload, hintended, hcount⟩ := exists_load hplain hreads hfiled hhealthy
  have hkept : store.KeepsSegments after := (ensures_load catalog).ok hload
  refine ⟨count, after, hload, ?_, ?_, ?_, hkept.metadata.segments, hcount, ?_, ?_⟩
  · intro id wanted stored hwanted hstored
    rw [hintended, hstored, intended_some hwanted, Collection.grown_eq]
  · intro id wanted hwanted hnone
    rw [hintended, hnone, intended_none hwanted]
  · intro id hnone
    rw [hintended, intended_of_absent hnone]
  · intro backend
    let again : GuardedStore := { after with metadata.backend := backend }
    have hreached (id : CollectionId) :
        catalog.intended id (again.metadata.collection? id) = again.metadata.collection? id := by
      change catalog.intended id (after.metadata.collection? id) = after.metadata.collection? id
      rw [hintended, intended_intended]
    have hagain : catalog.loadAll catalog.collections.keys again = (count, again) := by
      rw [hcount]
      exact loadAll_of_reached hplain (listed_keys catalog) (hkept.faults ▸ hreads)
        fun id _ => hreached id
    rw [load_eq hplain, hagain]
  · intro disturbed hdisturbed hhealthy'
    have happroaches := approaches_of_disturbed hdisturbed hplain hreads hfiled
    obtain ⟨count', later, hload', hintended', hcount'⟩ := exists_load hplain
      (happroaches.faults ▸ hreads) (happroaches.filed hfiled) hhealthy'
    have hsame (id : CollectionId) :
        later.metadata.collection? id = after.metadata.collection? id := by
      rw [hintended', happroaches.intended, hintended]
    refine ⟨later, ?_, SortedMap.ext_get? hsame⟩
    rw [hload', hcount, hcount']
    simp only [hsame]

/-- A collection that is stored with one partition, and the segments of the store. -/
def stored : GuardedStore where
  metadata := ((Metadata.perform (.addCollection
    ⟨⟨1⟩, ⟨"docs", [{ name := "pk", type := .int64 }]⟩, [⟨10⟩]⟩)).attempt Metadata.blank).2

/-- It is to have two partitions more; one collection is new, and one has no valid schema. -/
def wider : CatalogSnapshot where
  ddChannel := "dd"
  collections := [
    ⟨⟨1⟩, ⟨"docs", []⟩, [⟨20⟩, ⟨10⟩, ⟨20⟩, ⟨30⟩]⟩,
    ⟨⟨2⟩, ⟨"notes", [{ name := "pk", type := .int64 }]⟩, [⟨5⟩, ⟨5⟩]⟩,
    ⟨⟨3⟩, ⟨"empty", []⟩, [⟨7⟩]⟩]

/-- The backend refuses some of the next calls. -/
def refusing (refusals : List Bool) (store : GuardedStore) : GuardedStore :=
  { store with metadata.backend := { store.metadata.backend with refusals } }

/-- A load fails at its second write, and then the backend is well again. -/
def halfLoaded : GuardedStore :=
  refusing [] ((ofSnapshot wider).load.attempt (refusing [false, true, true] stored)).2

theorem disturbed_halfLoaded :
    Relation.ReflTransGen (Disturbs (ofSnapshot wider)) stored halfLoaded := by
  have hweather (refusals : List Bool) (store : GuardedStore) :
      Disturbs (ofSnapshot wider) store (refusing refusals store) := .weather rfl
  exact ((Relation.ReflTransGen.refl.tail (hweather _ _)).tail .load).tail (hweather _ _)

/--
What the failed load has left is one partition; the next load makes up for the rest. An
undisturbed load leaves nothing to do, so the next one meets no refusal.
-/
theorem load_converges_halfLoaded :
    (halfLoaded.metadata.collection? ⟨1⟩).map Collection.partitions = some [⟨10⟩, ⟨20⟩] ∧
    halfLoaded.metadata.collection? ⟨2⟩ = none ∧
    ∃ after later, (ofSnapshot wider).load stored = .ok 2 after ∧
      (ofSnapshot wider).load (refusing [true] after) = .ok 2 (refusing [true] after) ∧
      (ofSnapshot wider).load halfLoaded = .ok 2 later ∧
      later.metadata.records.collections = after.metadata.records.collections ∧
      (after.metadata.collection? ⟨1⟩).map Collection.partitions = some [⟨10⟩, ⟨20⟩, ⟨30⟩] ∧
      after.metadata.collection? ⟨3⟩ = none := by
  have hfiled : stored.metadata.Filed :=
    ((Metadata.Step.request _).writtenThrough Metadata.anew_blank.writtenThrough).2.filed
  obtain ⟨count, after, hload, hmerged, hadded, -, -, -, hagain, hlater⟩ :=
    load_converges wider hfiled rfl ⟨by decide +kernel, by decide +kernel, by decide +kernel⟩
  obtain ⟨later, hlater, hsame⟩ := hlater halfLoaded disturbed_halfLoaded
    ⟨by decide +kernel, by decide +kernel, by decide +kernel⟩
  have hcount : count = 2 := by
    have hanswer : ((ofSnapshot wider).load.attempt stored).1 = .ok 2 := by decide +kernel
    rw [attempt, hload] at hanswer
    exact Except.ok.inj hanswer
  subst hcount
  refine ⟨by decide +kernel, by decide +kernel, after, later, hload, hagain _, hlater, hsame, ?_, ?_⟩
  · rw [hmerged ⟨1⟩ ⟨⟨1⟩, ⟨"docs", []⟩, [⟨20⟩, ⟨10⟩, ⟨20⟩, ⟨30⟩]⟩
      ⟨⟨1⟩, ⟨"docs", [{ name := "pk", type := .int64 }]⟩, [⟨10⟩]⟩ (by decide +kernel)
      (by decide +kernel)]
    decide +kernel
  · rw [hadded ⟨3⟩ ⟨⟨3⟩, ⟨"empty", []⟩, [⟨7⟩]⟩ (by decide +kernel) (by decide +kernel)]
    rfl

end Catalog

end IngestCoordinator
