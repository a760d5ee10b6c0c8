-- SUMMARY: Every segment that is opened is well-formed, and no argument of it is refused.
import IngestCoordinator.Proofs.Allocator.Accepting
import IngestCoordinator.Proofs.Channels.Names
import IngestCoordinator.Proofs.Collection
import IngestCoordinator.Proofs.Coordinator.Assignment
import IngestCoordinator.Proofs.Coordinator.InsertChannels

/-!
# Opening segments

What a segment takes is decided in three places: the catalog names the collection and its
partitions, the division names the group of the channel, and the schema says how many rows
fit. A schema is checked when its collection is added, so there is nothing left to refuse
when a segment is opened much later. Whatever a process has been through, the records that
it adds are well-formed, also those that it then fails to open.
-/

namespace IngestCoordinator

open Operation

theorem Channels.blameless_of_groupOf {channels : Channels} {collection : CollectionId}
    {channel : String} {error : Error} (h : channels.groupOf collection channel = .error error) :
    error.Blameless := by
  unfold groupOf at h
  split at h
  · cases h
    exact trivial
  · split at h
    · cases h
      exact trivial
    · cases h

namespace Coordinator

variable {α : Type} {base c d : Coordinator} {key : SegmentKey} {segment segment' : Segment}
  {before after : Segments} {writes : List Write}

/-! ## Capacities -/

/-- As many rows as fit into a size, or one if not even that fits. -/
structure Fills (size width capacity : Nat) : Prop where
  positive : 1 ≤ capacity
  exact : width ≤ size → capacity * width ≤ size ∧ size < (capacity + 1) * width
  single : size < width → capacity = 1

theorem fills_capacityFor {size width : UInt64} (h : 1 ≤ width.toNat) :
    Fills size.toNat width.toNat (capacityFor size width).toNat := by
  have hcapacity : (capacityFor size width).toNat = max (size.toNat / width.toNat) 1 := by
    rw [capacityFor, Word.toNat_max, UInt64.toNat_div, Word.toNat_max]
    exact congrArg (fun width => max (size.toNat / width) 1) (Nat.max_eq_left h)
  rw [hcapacity]
  refine ⟨Nat.le_max_right .., fun hfits => ?_, fun hlarger => ?_⟩
  · rw [Nat.max_eq_left (Nat.div_pos hfits h)]
    exact ⟨Nat.div_mul_le_self .., (Nat.div_lt_iff_lt_mul h).1 (Nat.lt_succ_self _)⟩
  · rw [Nat.div_eq_of_lt hlarger]
    rfl

/-! ## Well-formed segments -/

/--
A segment that has been opened for a key: nothing of it is granted yet, its collection and
partition are stored, as many rows fit as the schema says, and the channel is in the one
group that has the name.
-/
structure WellFormed (c : Coordinator) (key : SegmentKey) (segment : Segment) : Prop where
  requested : segment.key = key
  offset : segment.nextOffset = 0
  placed : ∃ collection, c.store.metadata.collection? key.collection = some collection ∧
    key.partition ∈ collection.partitions ∧
    Fills c.settings.segment.sizeBytes.toNat collection.schema.bytes segment.capacity.toNat
  grouped : ∃ group, c.channels.Lists key.collection group ∧ key.channel ∈ group.channels ∧
    ∀ collection other, c.channels.Lists collection other →
      (other.name = segment.group ↔ other = group)

/-- Settings, channels and collections are as they were. -/
structure SameBasis (c d : Coordinator) : Prop where
  settings : d.settings = c.settings
  channels : d.channels = c.channels
  collections : d.allocator.Catalogs c.store.metadata.records.collections

theorem SameBasis.collection? (h : c.SameBasis d) (id : CollectionId) :
    d.store.metadata.collection? id = c.store.metadata.collection? id :=
  congrArg (SortedMap.get? · id) h.collections

theorem WellFormed.of_sameBasis (h : c.WellFormed key segment) (hsame : c.SameBasis d) :
    d.WellFormed key segment where
  requested := h.requested
  offset := h.offset
  placed := by
    rw [hsame.collection?, hsame.settings]
    exact h.placed
  grouped := by
    rw [hsame.channels]
    exact h.grouped

/-- Whatever happens to a segment but a grant, it stays as it has been opened. -/
theorem WellFormed.of_change {change : Change} (h : c.WellFormed key segment)
    (happly : change.apply segment = .ok segment') (hgrant : change.isGrant = false) :
    c.WellFormed key segment' := by
  have hsame := Segment.SameOrigin.of_change happly
  refine ⟨hsame.key.trans h.requested, (Change.nextOffset_eq happly hgrant).trans h.offset, ?_, ?_⟩
  · rw [hsame.capacity]
    exact h.placed
  · rw [hsame.group]
    exact h.grouped

/-- A write that opening a segment may make: a well-formed one is added, and nothing is granted. -/
def Opening (c : Coordinator) (key : SegmentKey) : Write → Prop
  | .add segment => c.WellFormed key segment
  | .change _ change => change.isGrant = false

/-- What is stored after such writes, and was not before, is well-formed. -/
theorem wellFormed_of_history (h : History before writes after)
    (hopening : ∀ write ∈ writes, c.Opening key write) {id : SegmentId}
    (habsent : before.get? id = none) (hget : after.get? id = some segment) :
    c.WellFormed key segment := by
  induction h generalizing id segment with
  | nil => cases habsent.symm.trans hget
  | snoc _ hdoes ih =>
    obtain ⟨hearlier, hlast⟩ := List.forall_mem_append.1 hopening
    have hwrite := hlast _ (List.mem_singleton_self _)
    cases hdoes.origin hget with
    | kept hget => exact ih hearlier habsent hget
    | added => exact hwrite
    | changed hold happly => exact (ih hearlier habsent hold).of_change happly hwrite

/-! ## Opening -/

/-- What opening a segment of a key does, wherever it stops. -/
structure Adds (c : Coordinator) (key : SegmentKey) (d : Coordinator) : Prop where
  wrote : c.Wrote (c.Opening key) d
  basis : c.SameBasis d

theorem Adds.refl (c : Coordinator) : c.Adds key c :=
  ⟨.refl c, rfl, rfl, rfl⟩

theorem Adds.of_allocator {b : Allocator} (h : base.Adds key c)
    (hwrote : c.allocator.Wrote (base.Opening key) b)
    (hcollections : b.Catalogs c.store.metadata.records.collections) :
    base.Adds key { c with allocator := b } where
  wrote := h.wrote.trans (.of_allocator hwrote)
  basis := ⟨h.basis.settings, h.basis.channels, hcollections.trans h.basis.collections⟩

theorem Adds.wellFormed {id : SegmentId} (h : c.Adds key d)
    (habsent : c.allocator.segments.get? id = none)
    (hget : d.allocator.segments.get? id = some segment) : d.WellFormed key segment := by
  obtain ⟨writes, hevolves, hopening⟩ := h.wrote.allocator.evolved
  exact (wellFormed_of_history hevolves.history hopening habsent hget).of_sameBasis h.basis

theorem accepting_onAllocator {call : Operation Allocator α}
    (hwrites : Allocator.Writes 0 (base.Opening key) call)
    (hcall : ∀ collections, Accepting (Allocator.Catalogs collections) call) :
    Accepting (base.Adds key) (onAllocator call) := fun c hc => by
  rw [onAllocator, ensures_onPart]
  refine ((hwrites c.allocator UInt64.zero_le).and (hcall _ c.allocator rfl)).imp ?_ ?_
  · exact fun _ b hb => hc.of_allocator hb.1 hb.2
  · exact fun _ b hb => ⟨hc.of_allocator hb.1 hb.2.1, hb.2.2⟩

/-- A segment that the allocator has opened is stored as it is answered. -/
theorem ensures_openSegment_stored {a : Allocator} (segment : Segment) :
    Ensures (Allocator.openSegment segment) a
      (fun opened b => opened.id = segment.id ∧ b.segments.get? segment.id = some opened)
      (fun _ _ => True) := by
  rw [Allocator.openSegment, ensures_bind]
  refine .of_forall (fun found b => ?_) fun _ _ => trivial
  cases found with
  | none => trivial
  | some stored =>
    dsimp only
    split
    · trivial
    · rw [ensures_bind]
      refine .of_forall (fun _ c => ?_) fun _ _ => trivial
      rw [ensures_bind]
      apply (Allocator.ensures_update segment.id Segment.grow).imp
      · rintro opened d ⟨-, -, -, hid, hstored⟩
        refine ⟨hid, ?_⟩
        change d.segments.get? segment.id = some opened
        rw [hstored.segments, hid, SortedMap.get?_insert_self]
      · exact fun _ _ _ => trivial

/-- The segment that is answered is a new one. -/
def Gains (c : Coordinator) (key : SegmentKey) (opened : Segment) (d : Coordinator) : Prop :=
  c.Adds key d ∧ c.allocator.segments.get? opened.id = none ∧
    d.allocator.segments.get? opened.id = some opened

theorem ensures_addSegment_openSegment (hfresh : segment.IsFresh)
    (hformed : base.WellFormed key segment) (hc : base.Adds key c) :
    Ensures (do
        onAllocator (Allocator.onStore (GuardedStore.addSegment segment))
        onAllocator (Allocator.openSegment segment)) c
      (fun opened d => base.Gains key opened d)
      (fun error d => base.Adds key d ∧ error.Blameless) := by
  have hadding := accepting_onAllocator (Allocator.writes_addSegment hfresh hformed)
    (fun _ => Allocator.accepting_addSegment segment) c hc
  have habsent : Ensures (onAllocator (Allocator.onStore (GuardedStore.addSegment segment))) c
      (fun _ _ => c.allocator.segments.get? segment.id = none) (fun _ _ => True) := by
    rw [onAllocator, ensures_onPart]
    exact Allocator.ensures_addSegment_absent segment
  rw [ensures_bind]
  apply (hadding.and habsent).imp
  · intro _ d hd
    have hopening := accepting_onAllocator
      (Allocator.writes_openSegment (fun _ => rfl) segment rfl)
      (fun _ => Allocator.accepting_openSegment segment) d hd.1
    have hstored : Ensures (onAllocator (Allocator.openSegment segment)) d
        (fun opened e => opened.id = segment.id ∧
          e.allocator.segments.get? segment.id = some opened) (fun _ _ => True) := by
      rw [onAllocator, ensures_onPart]
      exact ensures_openSegment_stored segment
    apply (hopening.and hstored).imp
    · rintro opened e ⟨hadds, hid, hget⟩
      rw [Gains, hid]
      exact ⟨hadds, hc.wrote.absent hd.2, hget⟩
    · exact fun _ _ he => he.1
  · exact fun _ _ hd => hd.1

theorem ensures_requireCollection_stored (id : CollectionId) :
    Ensures (requireCollection id) c
      (fun collection d => d = c ∧ c.store.metadata.collection? id = some collection)
      (fun error d => d = c ∧ error.Blameless) := by
  rw [requireCollection, ensures_bind, ensures_get, ensures_bind, ensures_ofExcept]
  refine ⟨fun found hfound => ?_, fun error herror => ⟨rfl, ?_⟩⟩
  · unfold GuardedStore.collection? at hfound
    split at hfound
    · cases hfound
    · cases hfound
      cases hget : c.store.metadata.collection? id with
      | none => exact ⟨rfl, trivial⟩
      | some collection => exact ⟨rfl, rfl⟩
  · unfold GuardedStore.collection? at herror
    split at herror
    · cases herror
      exact trivial
    · cases herror

/-- Rows of stored collections have exact widths, and no group has the name of another. -/
structure Prepared (c : Coordinator) : Prop where
  sized : ∀ id collection, c.store.metadata.collection? id = some collection →
    ∃ width, collection.schema.rowWidth = .ok width ∧ width.toNat = collection.schema.bytes ∧
      1 ≤ width.toNat
  named : ∀ {id id' : CollectionId} {group group' : ChannelGroup}, c.channels.Lists id group →
    c.channels.Lists id' group' → group'.name = group.name → group' = group

/-- What is built from a stored collection, its division and its schema is well-formed. -/
theorem Prepared.wellFormed_fresh (h : c.Prepared) {collection : Collection} {width : UInt64}
    {group : ChannelGroup} (hstored : c.store.metadata.collection? key.collection = some collection)
    (hpartition : collection.hasPartition key.partition = true)
    (hwidth : collection.schema.rowWidth = .ok width)
    (hgroup : c.channels.groupOf key.collection key.channel = .ok group) (id : SegmentId)
    (node : Option NodeId) (openTime : Timestamp) :
    c.WellFormed key (.fresh id key group.name node
      (capacityFor c.settings.segment.sizeBytes width) openTime) where
  requested := rfl
  offset := rfl
  placed := by
    obtain ⟨width', hwidth', hexact, hpositive⟩ := h.sized _ _ hstored
    cases hwidth.symm.trans hwidth'
    exact ⟨collection, hstored, List.contains_iff_mem.1 hpartition,
      hexact ▸ fills_capacityFor hpositive⟩
  grouped := by
    obtain ⟨hlists, hchannel⟩ := Channels.lists_of_groupOf hgroup
    refine ⟨group, hlists, hchannel, fun _ other hother => ⟨h.named hlists hother, ?_⟩⟩
    rintro rfl
    rfl

theorem writes_openTarget? {kind : Write → Prop} (key : SegmentKey) :
    Allocator.Writes 0 kind (Allocator.openTarget? key) := by
  refine Allocator.Writes.get.bind fun a => ?_
  split
  · exact .pure none
  · exact (Allocator.writes_segment? _).bind fun found => .pure _

/-- Opening a segment adds a well-formed one, and blames no argument. -/
theorem ensures_openSegment_gains (h : c.Prepared) (key : SegmentKey) :
    Ensures (openSegment key) c (fun opened d => c.Gains key opened d)
      (fun error d => c.Adds key d ∧ error.Blameless) := by
  rw [openSegment, ensures_bind]
  apply (accepting_onAllocator (writes_openTarget? key)
    (fun _ => Allocator.accepting_openTarget? key) c (.refl c)).imp
  case hfailed => exact fun _ _ hd => hd
  intro target d hd
  cases target with
  | some target => exact ⟨hd, trivial⟩
  | none =>
    rw [ensures_bind]
    apply (ensures_requireCollection_stored key.collection).imp
    case hfailed =>
      rintro error _ ⟨rfl, hblameless⟩
      exact ⟨hd, hblameless⟩
    rintro collection d ⟨rfl, hstored⟩
    rw [hd.basis.collection?] at hstored
    obtain ⟨width, hwidth, -, -⟩ := h.sized _ _ hstored
    dsimp only
    split
    · exact ⟨hd, trivial⟩
    · rename_i hpartition
      simp only [ensures_bind, ensures_get, ensures_ofExcept, hwidth, hd.basis.channels,
        hd.basis.settings]
      refine ⟨fun group hgroup => ⟨?_, fun error herror => by cases herror⟩, fun error herror => ?_⟩
      · rintro _ ⟨⟩
        apply (accepting_onAllocator (Allocator.writes_onIds _)
          (fun _ => Allocator.accepting_drawId) _ hd).imp
        case hfailed => exact fun _ _ he => he
        intro id e he
        apply (accepting_onAllocator (Allocator.writes_onIds _)
          (fun _ => Allocator.accepting_drawTimestamp) _ he).imp
        case hfailed => exact fun _ _ he => he
        intro openTime f hf
        have hformed := h.wellFormed_fresh hstored (by simpa using hpartition) hwidth hgroup ⟨id⟩
          (d.cluster.registry.ownerOf group.name) openTime
        have hopens := ensures_addSegment_openSegment (by exact rfl) hformed hf
        rwa [ensures_bind] at hopens
      · exact ⟨hd, Channels.blameless_of_groupOf herror⟩

theorem prepared_of_path {labels : List (Option Request)} (hbegins : c.Begins)
    (hrun : Path Occurs c labels d)
    (haccepted : ∀ id collection, d.store.metadata.collection? id = some collection →
      collection.Accepted ∧ collection.schema.fields.length < 0x40000000) : d.Prepared where
  sized id collection hget := by
    obtain ⟨haccepted, hfew⟩ := haccepted id collection hget
    obtain ⟨width, hwidth⟩ := haccepted.rowWidth
    obtain ⟨hexact, hpositive⟩ := Schema.rowWidth_eq_ok hwidth hfew
    exact ⟨width, hwidth, hexact, hexact ▸ hpositive⟩
  named hlists hlists' hname := by
    have hhoused : d.Housed c.channels :=
      hrun.invariant (fun _ _ _ h hstep => h.occurs hstep) hbegins.housed
    obtain ⟨calls, hcalls⟩ := hhoused.channels
    exact Channels.unique_of_path hcalls hhoused.empty hlists hlists' hname

/--
Wherever in its life a process opens a segment, and whatever its settings are: if the
schemas of the stored collections were accepted and have fewer than 2^30 fields, the width
of a row is the exact sum over its fields and a byte at least. A segment that is answered
is a new one, stored as it is answered, and well-formed. No error is about an argument, and
a record that a failed attempt leaves behind is well-formed as well.
-/
theorem opened_segments_are_well_formed {labels : List (Option Request)} (hbegins : c.Begins)
    (hrun : Path Occurs c labels d)
    (haccepted : ∀ id collection, d.store.metadata.collection? id = some collection →
      collection.Accepted ∧ collection.schema.fields.length < 0x40000000) :
    (∀ id collection, d.store.metadata.collection? id = some collection →
      ∃ width, collection.schema.rowWidth = .ok width ∧ width.toNat = collection.schema.bytes ∧
        1 ≤ width.toNat) ∧
    ∀ key,
      (∀ opened e, openSegment key d = .ok opened e →
        d.store.metadata.segment? opened.id = none ∧
        e.store.metadata.segment? opened.id = some opened ∧ e.WellFormed key opened) ∧
      ∀ error e, openSegment key d = .error error e →
        error.kind ≠ "ValidationError" ∧
        ∀ id segment, d.store.metadata.segment? id = none →
          e.store.metadata.segment? id = some segment → e.WellFormed key segment := by
  have hprepared := prepared_of_path hbegins hrun haccepted
  refine ⟨hprepared.sized, fun key => ⟨fun opened e hok => ?_, fun error e herror => ?_⟩⟩
  · obtain ⟨hadds, habsent, hget⟩ := (ensures_openSegment_gains hprepared key).ok hok
    exact ⟨habsent, hget, hadds.wellFormed habsent hget⟩
  · obtain ⟨hadds, hblameless⟩ := (ensures_openSegment_gains hprepared key).error herror
    exact ⟨hblameless.kind_ne, fun id segment habsent hget => hadds.wellFormed habsent hget⟩

/-- A collection whose rows take 8 + 512 + 8 bytes. -/
def vectors : Collection :=
  ⟨⟨1⟩, ⟨"schema", [⟨"key", .int64, 0⟩, ⟨"vector", .floatVector, 128⟩,
    ⟨"code", .binaryVector, 64⟩]⟩, [⟨2⟩]⟩

/-- Two nodes watch the three channels of the collection. -/
def watching : List Request :=
  [.addCollection vectors, .register "first" ⟨1⟩, .register "second" ⟨2⟩, .insertChannels ⟨1⟩]

/-- A segment takes the rows that fit 512 MiB; there is none for a partition that is missing. -/
theorem opened_segments_are_well_formed_vectors :
    let d := (performAll watching threeChannels).2
    (∃ opened e, openSegment ⟨⟨1⟩, ⟨2⟩, "channel-1_2"⟩ d = .ok opened e ∧
      opened.capacity = 1016800 ∧ opened.nextOffset = 0 ∧ opened.group = "1-group-1" ∧
      e.WellFormed ⟨⟨1⟩, ⟨2⟩, "channel-1_2"⟩ opened) ∧
    ∃ error e, openSegment ⟨⟨1⟩, ⟨3⟩, "channel-1_2"⟩ d = .error error e ∧
      error.kind ≠ "ValidationError" := by
  intro d
  have hrun : Path Occurs threeChannels
      (labelsOf (fun request _ => some request) watching threeChannels) d :=
    path_performAll (fun request _ _ => .request request) threeChannels
  have hadded : ∀ entry ∈ d.store.metadata.records.collections.toList, entry.2 = vectors := by
    decide +kernel
  have haccepted (id : CollectionId) (collection : Collection)
      (h : d.store.metadata.collection? id = some collection) :
      collection.Accepted ∧ collection.schema.fields.length < 0x40000000 := by
    obtain rfl := hadded (id, collection) (SortedMap.mem_toList_iff.2 h)
    exact ⟨⟨[⟨2⟩], threeChannels.store.metadata, _, eq_ok_of_attempt (by decide +kernel)⟩,
      by decide⟩
  obtain ⟨-, hopens⟩ := opened_segments_are_well_formed (begins_create ..) hrun haccepted
  constructor
  · have hanswer : ((openSegment ⟨⟨1⟩, ⟨2⟩, "channel-1_2"⟩).attempt d).1.toOption.map
        (fun opened => (opened.capacity, opened.group)) = some (1016800, "1-group-1") := by
      decide +kernel
    cases hresult : openSegment ⟨⟨1⟩, ⟨2⟩, "channel-1_2"⟩ d with
    | error error e =>
      rw [attempt, hresult] at hanswer
      cases hanswer
    | ok opened e =>
      rw [attempt, hresult] at hanswer
      obtain ⟨hcapacity, hgroup⟩ := Prod.mk.inj (Option.some.inj hanswer)
      obtain ⟨-, -, hformed⟩ := (hopens _).1 opened e hresult
      exact ⟨opened, e, rfl, hcapacity, hformed.offset, hgroup, hformed⟩
  · have hfails : ((openSegment ⟨⟨1⟩, ⟨3⟩, "channel-1_2"⟩).attempt d).1.isOk = false := by
      decide +kernel
    cases hresult : openSegment ⟨⟨1⟩, ⟨3⟩, "channel-1_2"⟩ d with
    | ok opened e =>
      rw [attempt, hresult] at hfails
      cases hfails
    | error error e => exact ⟨error, e, rfl, ((hopens _).2 error e hresult).1⟩

end Coordinator

end IngestCoordinator
