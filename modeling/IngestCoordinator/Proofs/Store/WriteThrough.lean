-- SUMMARY: What is in memory can be read back from the backend; a failed call changes neither.
import IngestCoordinator.Proofs.Store.Reopening
import IngestCoordinator.Proofs.Store.Sequencer

/-!
# Writing through

A store is asked to change its records. Meanwhile calls to the backend are refused or
not, and sequencers keep their counters below the same root. The entries below the root
mirror the records in memory throughout: each change reaches the backend first, and memory
only once the backend has taken it.
-/

namespace IngestCoordinator.Metadata

open Operation Backend

variable {m m' m₀ : Metadata} {b b' : Backend}

/-! ## Records in memory and in the backend -/

/-- The entries below the root are the records in memory. -/
structure WrittenThrough (m : Metadata) : Prop where
  collections : Collection.format.Mirrors m.root.collections m.backend m.records.collections
  segments : Segment.format.Mirrors m.root.segments m.backend m.records.segments

/-- Everything but the records may have changed: the counters, and which calls are refused. -/
structure Beside (m m' : Metadata) : Prop where
  root : m'.root = m.root
  records : m'.records = m.records
  entries : Sequencer.Elsewhere m.root m.backend m'.backend

theorem Untouched.beside (h : m.Untouched m') : m.Beside m' :=
  ⟨h.root, h.records, .of_entries h.entries⟩

namespace WrittenThrough

theorem beside (h : m.WrittenThrough) (hbeside : m.Beside m') : m'.WrittenThrough := by
  have hentries (key : String) (hstarts : startsWith m.root.collections key = true ∨
      startsWith m.root.segments key = true) :
      m'.backend.entries.get? key = m.backend.entries.get? key := by
    obtain ⟨hnext, hwindow⟩ := Root.not_counter_of_startsWith hstarts
    exact hbeside.entries key hnext hwindow
  constructor
  · rw [hbeside.root, hbeside.records]
    exact h.collections.of_entries fun key hstarts => hentries key (.inl hstarts)
  · rw [hbeside.root, hbeside.records]
    exact h.segments.of_entries fun key hstarts => hentries key (.inr hstarts)

theorem stored {segment : Segment} (h : m.WrittenThrough) (hstored : Stored segment m m') :
    m'.WrittenThrough := by
  constructor
  · rw [hstored.root, hstored.collections]
    refine h.collections.of_entries fun key hstarts => ?_
    rw [hstored.entries, SortedMap.get?_insert, if_neg (Root.segment_ne_of_startsWith hstarts)]
  · rw [hstored.root, hstored.segments]
    exact h.segments.insert hstored.entries

theorem storedCollection {collection : Collection} (h : m.WrittenThrough)
    (hstored : StoredCollection collection m m') : m'.WrittenThrough := by
  constructor
  · rw [hstored.root, hstored.collections]
    exact h.collections.insert hstored.entries
  · rw [hstored.root, hstored.segments]
    refine h.segments.of_entries fun key hstarts => ?_
    rw [hstored.entries, SortedMap.get?_insert, if_neg (Root.collection_ne_of_startsWith hstarts)]

theorem not_spoiled (h : m.WrittenThrough) : ¬ Spoiled m.root m.backend := by
  rintro ⟨key, cell, hget, ⟨hstarts, hno⟩ | ⟨hstarts, hno⟩⟩
  · obtain ⟨collection, hholds⟩ := h.collections.readable hget hstarts
    exact hno collection hholds
  · obtain ⟨segment, hholds⟩ := h.segments.readable hget hstarts
    exact hno segment hholds

/-- Loading finds the records in memory, and fails only on an ill backend. -/
theorem ensures_load (h : m.WrittenThrough) : Ensures (load m.root) m.backend
    (fun records _ => records = m.records) (fun _ _ => ¬ m.backend.Healthy) := by
  refine (Metadata.ensures_load m.root).imp ?_ ?_
  · rintro records b' ⟨_, collections, segments, hcollections, hsegments, rfl⟩
    have hfirst := h.collections.ofList_fetched hcollections
    have hsecond := h.segments.ofList_fetched hsegments
    calc
      _ = (⟨m.records.collections, m.records.segments⟩ : Records) :=
        congrArg₂ Records.mk hfirst hsecond
      _ = m.records := rfl
  · rintro e b' ⟨_, hspoiled⟩ hhealthy
    exact h.not_spoiled (hspoiled hhealthy)

end WrittenThrough

/-! ## Runs -/

/-- A change of the records that the store is asked for. -/
inductive Request where
  | addCollection (collection : Collection)
  | addPartition (id : CollectionId) (partition : PartitionId)
  | addSegment (segment : Segment)
  | updateSegment (id : SegmentId) (change : Segment → Except Error Segment)

/-- Does what is asked. -/
def perform : Request → Operation Metadata Unit
  | .addCollection collection => addCollection collection
  | .addPartition id partition => addPartition id partition
  | .addSegment segment => addSegment segment
  | .updateSegment id change => (fun _ => ()) <$> updateSegment id change

/-- A call of a sequencer below the root. -/
inductive Draw (root : Root) where
  | opening (blockSize : UInt64)
  | id (sequencer : Sequencer) (h : sequencer.root = root)
  | timestamp (sequencer : Sequencer) (now : UInt64) (h : sequencer.root = root)

/-- The backend after a call of a sequencer, whether it has failed or not. -/
def Draw.on {root : Root} : Draw root → Backend → Backend
  | .opening blockSize, b => ((Sequencer.open root blockSize).attempt b).2
  | .id sequencer _, b => (sequencer.drawId.attempt b).2
  | .timestamp sequencer now _, b => ((sequencer.drawTimestamp now).attempt b).2

/-- One thing happens: a request, a draw, or a change in which calls the backend refuses. -/
inductive Step : Metadata → Metadata → Prop where
  | request {m : Metadata} (request : Request) : Step m ((perform request).attempt m).2
  | draw {m : Metadata} (draw : Draw m.root) : Step m { m with backend := draw.on m.backend }
  | weather {m : Metadata} {b : Backend} (h : b.entries = m.backend.entries) :
    Step m { m with backend := b }

/-- A request writes one record to both sides, or changes nothing; if it fails, nothing. -/
theorem ensures_perform (request : Request) : Ensures (perform request) m
    (fun _ m' => m.Untouched m' ∨ (∃ segment, Stored segment m m') ∨
      ∃ collection, StoredCollection collection m m')
    (fun _ m' => m.Untouched m') := by
  cases request with
  | addCollection collection =>
    exact (ensures_addCollection collection).imp (fun _ _ h => .inr (.inr ⟨collection, h⟩))
      fun _ _ h => h
  | addPartition id partition =>
    exact (ensures_addPartition id partition).imp (fun _ _ h => h.imp_right .inr) fun _ _ h => h
  | addSegment segment =>
    exact (ensures_addSegment segment).imp (fun _ _ h => .inr (.inl ⟨segment, h.2⟩))
      fun _ _ h => h
  | updateSegment id change =>
    rw [perform, ensures_map]
    refine (ensures_updateSegment id change).imp ?_ fun _ _ h => h.1
    rintro updated m' ⟨segment, _, _, _, hstored⟩
    exact .inr (.inl ⟨updated, hstored⟩)

theorem Draw.elsewhere {root : Root} (draw : Draw root) (b : Backend) :
    Sequencer.Elsewhere root b (draw.on b) := by
  cases draw with
  | opening blockSize =>
    refine Ensures.attempt_snd ((Sequencer.ensures_open root blockSize).imp ?_ ?_)
    · exact fun _ _ h => .of_entries h.1
    · exact fun _ _ h => .of_entries h
  | id sequencer h =>
    change Sequencer.Elsewhere root b (sequencer.drawId.attempt b).2
    rw [← h]
    exact (Sequencer.ensures_drawId_elsewhere sequencer).attempt_snd
  | timestamp sequencer now h =>
    change Sequencer.Elsewhere root b ((sequencer.drawTimestamp now).attempt b).2
    rw [← h]
    exact (Sequencer.ensures_drawTimestamp_elsewhere sequencer now).attempt_snd

/-- Every step keeps memory and backend in agreement. -/
theorem Step.writtenThrough (h : Step m m') (hm : m.WrittenThrough) :
    m'.root = m.root ∧ m'.WrittenThrough := by
  cases h with
  | request request =>
    refine Ensures.attempt_snd (p := fun m' => m'.root = m.root ∧ m'.WrittenThrough)
      ((ensures_perform request).imp ?_ ?_)
    · rintro _ m' (huntouched | ⟨segment, hstored⟩ | ⟨collection, hstored⟩)
      · exact ⟨huntouched.root, hm.beside huntouched.beside⟩
      · exact ⟨hstored.root, hm.stored hstored⟩
      · exact ⟨hstored.root, hm.storedCollection hstored⟩
    · intro _ m' huntouched
      exact ⟨huntouched.root, hm.beside huntouched.beside⟩
  | draw draw => exact ⟨rfl, hm.beside ⟨rfl, rfl, draw.elsewhere m.backend⟩⟩
  | weather hentries => exact ⟨rfl, hm.beside ⟨rfl, rfl, .of_entries hentries⟩⟩

/-- A store that has been opened where no record lay below the root. -/
structure Anew (m : Metadata) : Prop where
  opened : ∃ b, Metadata.open m.root b = (.ok m, m.backend)
  empty : ∀ key cell, m.backend.entries.get? key = some cell →
    startsWith m.root.collections key = false ∧ startsWith m.root.segments key = false

theorem Anew.writtenThrough (h : m.Anew) : m.WrittenThrough := by
  have hnone : WrittenThrough { m with records := {} } :=
    ⟨Format.mirrors_empty fun key cell hget => (h.empty key cell hget).1,
      Format.mirrors_empty fun key cell hget => (h.empty key cell hget).2⟩
  -- The backend before the opening had the same entries, so it was empty as well.
  obtain ⟨b, hopen⟩ := h.opened
  obtain ⟨hload, -⟩ := load_of_open hopen
  obtain ⟨hsame, -⟩ := (Metadata.ensures_load m.root).ok hload
  have hbefore : WrittenThrough ⟨b, m.root, {}⟩ :=
    hnone.beside ⟨rfl, rfl, .of_entries hsame.entries.symm⟩
  have hrecords : m.records = {} := hbefore.ensures_load.ok hload
  rwa [← hrecords] at hnone

/--
A request that fails leaves the records in memory and all entries of the backend as they
were. After every step the store can be opened again on what the backend holds, and finds
the records that are in memory.
-/
theorem memory_is_written_through (hanew : m₀.Anew) (hrun : Relation.ReflTransGen Step m₀ m) :
    (∀ request e m', perform request m = .error e m' →
      m'.records = m.records ∧ m'.backend.entries = m.backend.entries) ∧
    ∀ b, b.entries = m.backend.entries → b.Healthy →
      ∃ m' b', Metadata.open m₀.root b = (.ok m', b') ∧ m'.records = m.records := by
  have hkept : m.root = m₀.root ∧ m.WrittenThrough := by
    induction hrun with
    | refl => exact ⟨rfl, hanew.writtenThrough⟩
    | tail _ hstep ih =>
      obtain ⟨hroot, hwritten⟩ := hstep.writtenThrough ih.2
      exact ⟨hroot.trans ih.1, hwritten⟩
  obtain ⟨hroot, hwritten⟩ := hkept
  refine ⟨fun request e m' hrun => ?_, fun b hentries hhealthy => ?_⟩
  · have huntouched := (ensures_perform request).error hrun
    exact ⟨huntouched.records, huntouched.entries⟩
  · have hb : WrittenThrough { m with backend := b } :=
      hwritten.beside ⟨rfl, rfl, .of_entries hentries⟩
    have hload := hb.ensures_load
    rw [← hroot]
    unfold Metadata.open
    unfold Ensures at hload
    split at hload
    · rename_i records b' heq
      dsimp only at heq
      rw [heq]
      exact ⟨_, _, rfl, hload⟩
    · exact absurd hhealthy hload

/-! ## A refused change -/

def blank : Metadata :=
  ⟨{}, ⟨"meta"⟩, {}⟩

def docs : Collection :=
  ⟨⟨1⟩, ⟨"docs", [{ name := "pk", type := .int64 }]⟩, []⟩

def built : Segment :=
  .fresh ⟨7⟩ ⟨⟨1⟩, ⟨10⟩, "insert"⟩ "group" none 10 0

/-- A sequencer below the same root, about to reserve its first block. -/
def numbering : Sequencer where
  root := blank.root
  blockSize := 8
  physical := 0
  windowEnd := 0

/-- The counter, a collection and a segment are stored; the next call will be refused. -/
def stocked : Metadata :=
  let m := { blank with backend := (Draw.id numbering rfl).on blank.backend }
  let m := ((perform (.addCollection docs)).attempt m).2
  let m := ((perform (.addSegment built)).attempt m).2
  { m with backend := { m.backend with refusals := [true] } }

theorem anew_blank : blank.Anew where
  opened := ⟨{}, rfl⟩
  empty := fun _ _ hget => nomatch hget

theorem run_stocked : Relation.ReflTransGen Step blank stocked :=
  (((Relation.ReflTransGen.refl.tail (.draw (.id numbering rfl))).tail
    (.request (.addCollection docs))).tail (.request (.addSegment built))).tail (.weather rfl)

/-- Opens the segment that is stored. -/
def growing : Request :=
  .updateSegment ⟨7⟩ fun segment => .ok { segment with state := .growing }

/-- A change that the backend refuses is not made: a store opened later finds what was stored. -/
theorem refused_update_is_not_made :
    ∃ m' found b', perform growing stocked = .error (.storeUnavailable .markedUnavailable) m' ∧
      m'.records = stocked.records ∧ m'.backend.entries = stocked.backend.entries ∧
      Metadata.open ⟨"meta"⟩ m'.backend = (.ok found, b') ∧
      found.segment? ⟨7⟩ = some built ∧ found.collection? ⟨1⟩ = some docs := by
  obtain ⟨hfails, hopens⟩ := memory_is_written_through anew_blank run_stocked
  have hrefused : ((perform growing).attempt stocked).1 =
      .error (.storeUnavailable .markedUnavailable) := by decide +kernel
  have hrun := Operation.eq_error_of_attempt hrefused
  obtain ⟨hrecords, hentries⟩ := hfails _ _ _ hrun
  obtain ⟨found, b', hopen, hfound⟩ :=
    hopens _ hentries ⟨by decide +kernel, by decide +kernel, by decide +kernel⟩
  refine ⟨_, found, b', hrun, hrecords, hentries, hopen, ?_, ?_⟩
  · rw [segment?, hfound]
    decide +kernel
  · rw [collection?, hfound]
    decide +kernel

end IngestCoordinator.Metadata
