-- SUMMARY: What one request for rows is answered where nothing is refused, and what it changes.
import IngestCoordinator.Proofs.Allocator.Opening
import IngestCoordinator.Proofs.Coordinator.Crash

/-!
# Assignment

A request for rows is granted rows on the target of its key, if that has room. If not, a
segment is opened for it: one and no more, since it has room for a row at least. When
something about the key is missing this is noticed before anything is drawn or written.
So no client is told to try again where calls are not refused.
-/

namespace IngestCoordinator

open Operation

/-- The next identifiers. -/
def ManualClock.coming (clock : ManualClock) : Nat → List Int64
  | 0 => []
  | n + 1 => clock.drawId.1 :: clock.drawId.2.coming n

namespace ManualClock

variable {clock clock' : ManualClock}

theorem coming_congr (h : clock'.nextId = clock.nextId) (n : Nat) :
    clock'.coming n = clock.coming n := by
  induction n generalizing clock clock' with
  | zero => rfl
  | succ n ih =>
    have hnext : clock'.drawId.2.nextId = clock.drawId.2.nextId := congrArg (· + 1) h
    exact congrArg₂ List.cons h (ih hnext)

theorem coming_sublist (clock : ManualClock) (n : Nat) :
    (clock.coming n).Sublist (clock.coming (n + 1)) := by
  induction n generalizing clock with
  | zero => exact List.nil_sublist _
  | succ n ih => exact (ih clock.drawId.2).cons_cons _

end ManualClock

/-! ## Collections -/

theorem Field.width_error {field : Field} {error : Error} (h : field.width = .error error) :
    ∃ fault, error = .invalidArgument fault := by
  unfold width at h
  grind

theorem Schema.rowWidth_error {schema : Schema} {error : Error}
    (h : schema.rowWidth = .error error) : ∃ fault, error = .invalidArgument fault := by
  unfold rowWidth at h
  split at h
  · cases h
    exact ⟨_, rfl⟩
  · generalize (0 : UInt64) = total at h
    generalize schema.fields = fields at h
    induction fields generalizing total with
    | nil => cases h
    | cons field fields ih =>
      rw [List.foldlM_cons] at h
      cases hwidth : field.width with
      | error error' =>
        rw [hwidth] at h
        cases h
        exact Field.width_error hwidth
      | ok width =>
        rw [hwidth] at h
        exact ih _ h

/-- The schema was accepted when the collection was added, whatever partitions it has by now. -/
def Collection.Accepted (collection : Collection) : Prop :=
  ∃ partitions m m', Metadata.addCollection { collection with partitions } m = .ok () m'

theorem Collection.Accepted.rowWidth {collection : Collection} (h : collection.Accepted) :
    ∃ width, collection.schema.rowWidth = .ok width := by
  obtain ⟨partitions, m, m', hadded⟩ := h
  have hwidth : Ensures (Metadata.addCollection { collection with partitions }) m
      (fun _ _ => ∃ width, collection.schema.rowWidth = .ok width) (fun _ _ => True) := by
    simp only [Metadata.addCollection, ensures_bind, ensures_get]
    split
    · trivial
    · simp only [ensures_bind, ensures_ofExcept]
      exact ⟨fun width hwidth => .of_forall (fun _ _ => ⟨width, hwidth⟩) fun _ _ => trivial,
        fun _ _ => trivial⟩
  exact hwidth.ok hadded

namespace Coordinator

open Allocator (Opens Served)

variable {c d e : Coordinator} {key : SegmentKey} {segment target : Segment} {wanted : UInt64}
  {n : Nat}

/-! ## Health -/

/-- Nothing is refused, and the next `n` identifiers are new ones. -/
structure Healthy (n : Nat) (c : Coordinator) : Prop where
  writable : c.allocator.store.Writable
  readable : c.allocator.store.faults.readCollection = false
  drawable : c.allocator.ids.rejecting = false
  distinct : (c.allocator.ids.clock.coming n).Nodup
  unused : ∀ id ∈ c.allocator.ids.clock.coming n, c.allocator.segments.get? ⟨id⟩ = none

theorem Healthy.mono (h : c.Healthy (n + 1)) : c.Healthy n where
  writable := h.writable
  readable := h.readable
  drawable := h.drawable
  distinct := h.distinct.sublist (ManualClock.coming_sublist _ n)
  unused id hmem := h.unused id ((ManualClock.coming_sublist _ n).subset hmem)

theorem Healthy.of_sameConditions (h : c.Healthy n)
    (hconditions : c.allocator.SameConditions d.allocator) {m : Nat}
    (hdistinct : (d.allocator.ids.clock.coming m).Nodup)
    (hunused : ∀ id ∈ d.allocator.ids.clock.coming m, d.allocator.segments.get? ⟨id⟩ = none) :
    d.Healthy m where
  writable := hconditions.writable h.writable
  readable := by
    rw [hconditions.faults]
    exact h.readable
  drawable := hconditions.rejecting.trans h.drawable
  distinct := hdistinct
  unused := hunused

theorem Healthy.served {grant : Grant} (h : c.Healthy n)
    (hget : c.allocator.segments.get? target.id = some target)
    (hserved : Served wanted target grant c.allocator d.allocator) : d.Healthy n := by
  have hcoming : d.allocator.ids.clock.coming n = c.allocator.ids.clock.coming n :=
    ManualClock.coming_congr hserved.ids.nextId n
  apply h.of_sameConditions hserved.conditions
  · rw [hcoming]
    exact h.distinct
  · intro id hmem
    rw [hcoming] at hmem
    have hnone := h.unused id hmem
    have hne : (⟨id⟩ : SegmentId) ≠ target.id := by
      intro heq
      rw [heq, hget] at hnone
      cases hnone
    rw [hserved.segments, SortedMap.get?_insert, if_neg hne]
    exact hnone

/-- The coordinator once a request that found no target has been counted. -/
def turnedAway (c : Coordinator) : Coordinator :=
  { c with allocator.metrics.noSegment := c.allocator.metrics.noSegment + 1 }

theorem Healthy.turnedAway (h : c.Healthy n) : c.turnedAway.Healthy n :=
  ⟨h.writable, h.readable, h.drawable, h.distinct, h.unused⟩

theorem Sound.turnedAway (h : c.Sound) : c.turnedAway.Sound :=
  ⟨h.allocator.of_eq rfl rfl, h.commands⟩

/-! ## What is missing -/

/-- The first thing that keeps a segment of a key from being opened. -/
def obstacle? (c : Coordinator) (key : SegmentKey) : Option Error :=
  match c.store.metadata.collection? key.collection with
  | none => some (.notFound (.collection key.collection))
  | some collection =>
    if key.partition ∉ collection.partitions then some (.notFound (.partition key.partition))
    else
      match c.channels.groups.get? key.collection with
      | none => some (.invalidState (.channelsNotAllocated key.collection))
      | some groups =>
        if ∃ group ∈ groups, key.channel ∈ group.channels then none
        else some (.notFound (.channel key.channel))

theorem isRetryable_obstacle {error : Error} (h : c.obstacle? key = some error) :
    error.isRetryable = false := by
  unfold obstacle? at h
  split at h
  · cases h
    rfl
  · split at h
    · cases h
      rfl
    · split at h
      · cases h
        rfl
      · split at h
        · cases h
        · cases h
          rfl

/-- Once the collection has the partition, only the division of the channels matters. -/
theorem obstacle?_of_partition {collection : Collection}
    (hcollection : c.store.metadata.collection? key.collection = some collection)
    (hpartition : collection.hasPartition key.partition = true) :
    c.obstacle? key = match c.channels.groupOf key.collection key.channel with
      | .ok _ => none
      | .error error => some error := by
  have hmem : key.partition ∈ collection.partitions := by
    simpa [Collection.hasPartition] using hpartition
  simp only [obstacle?, hcollection, hmem, not_true_eq_false, if_false, Channels.groupOf]
  cases c.channels.groups.get? key.collection with
  | none => rfl
  | some groups =>
    dsimp only
    cases hfound : groups.find? (·.contains key.channel) with
    | none =>
      have hnone : ¬ ∃ group ∈ groups, key.channel ∈ group.channels := by
        rintro ⟨group, hgroup, hchannel⟩
        have hcontains : group.contains key.channel = true := by
          simpa [ChannelGroup.contains] using hchannel
        exact List.find?_eq_none.1 hfound group hgroup hcontains
      rw [if_neg hnone]
    | some group =>
      have hcontains := List.find?_some hfound
      rw [if_pos ⟨group, List.mem_of_find?_eq_some hfound, by
        simpa [ChannelGroup.contains] using hcontains⟩]

/-- What a segment of the key takes is missing, or the rows of the collection have no width. -/
def Lacks (c : Coordinator) (key : SegmentKey) (error : Error) : Prop :=
  c.obstacle? key = some error ∨ ∃ collection,
    c.store.metadata.collection? key.collection = some collection ∧
    collection.schema.rowWidth = .error error

theorem Lacks.isRetryable {error : Error} (h : c.Lacks key error) : error.isRetryable = false := by
  rcases h with hobstacle | ⟨collection, -, hwidth⟩
  · exact isRetryable_obstacle hobstacle
  · obtain ⟨fault, rfl⟩ := Schema.rowWidth_error hwidth
    rfl

/-- Where all collections were accepted, rows have a width. -/
theorem Lacks.obstacle {error : Error} (h : c.Lacks key error)
    (haccepted : ∀ id collection, c.store.metadata.collection? id = some collection →
      collection.Accepted) : c.obstacle? key = some error := by
  refine h.resolve_right ?_
  rintro ⟨collection, hcollection, hwidth⟩
  obtain ⟨width, hok⟩ := (haccepted _ collection hcollection).rowWidth
  cases hok.symm.trans hwidth

/-! ## Opening a segment -/

theorem ensures_requireCollection_iff {id : CollectionId} {done : Collection → Coordinator → Prop}
    {failed : Error → Coordinator → Prop} (h : c.allocator.store.faults.readCollection = false) :
    Ensures (requireCollection id) c done failed ↔
      match c.store.metadata.collection? id with
      | none => failed (.notFound (.collection id)) c
      | some collection => done collection c := by
  have hread : c.store.collection? id = .ok (c.store.metadata.collection? id) := by
    simp [GuardedStore.collection?, store, h]
  simp only [requireCollection, ensures_bind, ensures_get, hread, ensures_ofExcept]
  cases c.store.metadata.collection? id with
  | none => simp
  | some collection => simp

/-- A segment of the key, with as many rows as one takes, has been opened and these are granted. -/
structure Provides (key : SegmentKey) (granted : UInt64) (segment : Segment) (c d : Coordinator) :
    Prop where
  unobstructed : c.obstacle? key = none
  opens : Opens key segment c.allocator d.allocator
  current : segment.superseded = false
  granted : segment.nextOffset = granted
  capacity : ∃ collection width,
    c.store.metadata.collection? key.collection = some collection ∧
    collection.schema.rowWidth = .ok width ∧
    segment.capacity = capacityFor c.settings.segment.sizeBytes width
  rest : d = { c with allocator := d.allocator }

theorem Provides.remaining (h : Provides key 0 segment c d) :
    segment.remaining = segment.capacity := by
  rw [Segment.remaining, h.granted, ← UInt64.toNat_inj, Saturating.toNat_sub]
  exact Nat.sub_zero _

/-- A segment has room for a row at least. -/
theorem Provides.isAllocatable (h : Provides key 0 segment c d) : segment.isAllocatable = true := by
  obtain ⟨collection, width, -, -, hcapacity⟩ := h.capacity
  refine Segment.isAllocatable_iff.2 ⟨h.opens.growing, h.current, ?_⟩
  rw [h.remaining, hcapacity]
  have hone : (1 : UInt64) ≤ capacityFor c.settings.segment.sizeBytes width :=
    Word.le_max_right _ _
  exact UInt64.lt_of_lt_of_le (by decide) hone

/-- Rows are granted on the segment that has just been opened. -/
theorem Provides.served {grant : Grant} (h : Provides key 0 segment c d)
    (hserved : Served wanted segment grant d.allocator e.allocator)
    (hrest : e = { d with allocator := e.allocator }) :
    ∃ segment, Provides key grant.count segment c e ∧
      grant.rows = (segment.id, 0, min wanted segment.capacity) := by
  have hnext : segment.nextOffset + grant.count = grant.count := by
    rw [h.granted, UInt64.zero_add]
  refine ⟨_, ⟨h.unobstructed, h.opens.served hserved, h.current, hnext, h.capacity, ?_⟩, ?_⟩
  · rw [hrest, h.rest]
  · rw [hserved.rows, h.granted, h.remaining]

theorem Provides.of_turnedAway {granted : UInt64}
    (h : Provides key granted segment c.turnedAway d) : Provides key granted segment c d where
  unobstructed := h.unobstructed
  opens := h.opens.of_eq rfl rfl rfl
  current := h.current
  granted := h.granted
  capacity := h.capacity
  rest := h.rest

theorem Provides.healthy {granted : UInt64} (h : Provides key granted segment c d)
    (hhealthy : c.Healthy (n + 1)) : d.Healthy n := by
  have hcoming : d.allocator.ids.clock.coming n = c.allocator.ids.clock.drawId.2.coming n :=
    ManualClock.coming_congr h.opens.nextId n
  obtain ⟨hnext, hdistinct⟩ := List.nodup_cons.1 hhealthy.distinct
  apply hhealthy.of_sameConditions h.opens.conditions
  · rw [hcoming]
    exact hdistinct
  · intro id hmem
    rw [hcoming] at hmem
    have hne : (⟨id⟩ : SegmentId) ≠ segment.id := by
      rw [h.opens.numbered]
      intro heq
      cases heq
      exact hnext hmem
    rw [h.opens.segments, if_neg hne, hhealthy.unused id (List.mem_cons_of_mem _ hmem)]
    rfl

/-- Opening a segment succeeds unless something is missing, and then it has done nothing. -/
theorem ensures_openSegment_provides (h : c.Sound) (hhealthy : c.Healthy (n + 1))
    (hroom : c.allocator.room? key = none) : Ensures (openSegment key) c
      (fun _ d => ∃ segment, Provides key 0 segment c d)
      (fun error d => d = c ∧ c.Lacks key error) := by
  simp only [openSegment, ensures_bind, onAllocator, ensures_onPart,
    Allocator.ensures_openTarget?_iff h.allocator.truthful, hroom,
    ensures_requireCollection_iff hhealthy.readable]
  cases hcollection : c.store.metadata.collection? key.collection with
  | none => exact ⟨trivial, .inl (by simp [obstacle?, hcollection])⟩
  | some collection =>
    dsimp only
    split
    · rename_i hno
      have hmem : key.partition ∉ collection.partitions := by
        simpa [Collection.hasPartition] using hno
      exact ⟨rfl, .inl (by simp [obstacle?, hcollection, hmem])⟩
    · rename_i hpartition
      have hobstacle := obstacle?_of_partition hcollection (by simpa using hpartition)
      simp only [ensures_bind, ensures_get, ensures_ofExcept]
      refine ⟨fun group hgroup => ⟨fun width hwidth => ?_, fun error hwidth => ?_⟩,
        fun error hgroup => ?_⟩
      · rw [hgroup] at hobstacle
        have hbuild := Allocator.ensures_build h.allocator hhealthy.writable hhealthy.drawable
          hcollection (hhealthy.unused _ (List.mem_cons_self ..)) hroom group.name
          (c.cluster.registry.ownerOf group.name)
          (capacityFor c.settings.segment.sizeBytes width)
        have hprovides : ∀ (_ : Segment) b, (∃ segment, Opens key segment c.allocator b ∧
            segment.superseded = false ∧ segment.nextOffset = 0 ∧
            segment.capacity = capacityFor c.settings.segment.sizeBytes width) →
            ∃ segment, Provides key 0 segment c { c with allocator := b } := by
          rintro _ b ⟨segment, hopens, hcurrent, hempty, hcapacity⟩
          exact ⟨segment, hobstacle, hopens, hcurrent, hempty,
            ⟨collection, width, hcollection, hwidth, hcapacity⟩, rfl⟩
        have hnever : ∀ error (b : Allocator), False →
            { c with allocator := b } = c ∧ c.Lacks key error :=
          fun _ _ hfalse => hfalse.elim
        simpa only [ensures_bind, ensures_onPart] using hbuild.imp hprovides hnever
      · exact ⟨trivial, .inr ⟨collection, hcollection, hwidth⟩⟩
      · rw [hgroup] at hobstacle
        exact ⟨trivial, .inl hobstacle⟩

/-! ## Requests for rows -/

/-- With room the rows are granted on the target, however often it might be tried. -/
theorem ensures_assignOne_room {request : RowRequest} (h : c.Sound) (hhealthy : c.Healthy n)
    (hwanted : request.count ≠ 0) (hroom : c.allocator.room? request.key = some target)
    (opens : Nat) : Ensures (assignOne request opens) c
      (fun grant d => Served request.count target grant c.allocator d.allocator ∧
        d = { c with allocator := d.allocator })
      (fun _ _ => False) := by
  have halloc : Ensures (onAllocator (Allocator.alloc request.key request.count)) c
      (fun grant d => Served request.count target grant c.allocator d.allocator ∧
        d = { c with allocator := d.allocator })
      (fun _ _ => False) := by
    rw [onAllocator, ensures_onPart]
    apply (Allocator.ensures_alloc_room h.allocator.sound hhealthy.writable hwanted hroom).imp
    · exact fun _ b hserved => ⟨hserved.2, rfl⟩
    · intro error b hrefused
      cases hhealthy.drawable.symm.trans hrefused.1
  cases opens with
  | zero => exact halloc
  | succ opens =>
    obtain ⟨grant, hok, hserved⟩ := halloc.attempt_done
    rw [assignOne, ensures_bind, ensures_ofStep, hok]
    exact hserved

theorem ensures_alloc_turnedAway (h : c.Sound) (hwanted : wanted ≠ 0)
    (hroom : c.allocator.room? key = none) : Ensures (onAllocator (Allocator.alloc key wanted)) c
      (fun _ _ => False) (fun error d => error = .noGrowingSegment key ∧ d = c.turnedAway) := by
  rw [onAllocator, ensures_onPart]
  apply (Allocator.ensures_alloc_no_room h.allocator.sound hwanted hroom).imp
  · exact fun _ _ hfalse => hfalse
  · rintro error b ⟨rfl, rfl⟩
    exact ⟨rfl, rfl⟩

/-- Without room one segment is opened, and rows are granted on it; or something is missing. -/
theorem ensures_assignOne_no_room {request : RowRequest} (h : c.Sound)
    (hhealthy : c.Healthy (n + 1)) (hwanted : request.count ≠ 0)
    (hroom : c.allocator.room? request.key = none) (opens : Nat) :
    Ensures (assignOne request (opens + 1)) c
      (fun grant d => ∃ segment, Provides request.key grant.count segment c d ∧
        grant.rows = (segment.id, 0, min request.count segment.capacity))
      (fun error d => d = c.turnedAway ∧ c.Lacks request.key error) := by
  rw [assignOne, ensures_bind, ensures_ofStep]
  have hattempt := (ensures_alloc_turnedAway h hwanted hroom).attempt
  generalize (onAllocator (Allocator.alloc request.key request.count)).attempt c = attempted
    at hattempt ⊢
  obtain ⟨result, d⟩ := attempted
  cases result with
  | ok grant => exact hattempt.elim
  | error error =>
    obtain ⟨rfl, rfl⟩ := hattempt
    dsimp only
    rw [ensures_bind, ensures_ofStep]
    have hopening := ((ensures_openSegment_provides h.turnedAway hhealthy.turnedAway hroom).and
      (steady_openSegment request.key c.turnedAway h.turnedAway)).attempt
    generalize (openSegment request.key).attempt c.turnedAway = attempted at hopening ⊢
    obtain ⟨result, d⟩ := attempted
    cases result with
    | ok segment =>
      obtain ⟨⟨segment, hprovides⟩, hproceeds⟩ := hopening
      have hroom' := hprovides.opens.room? hprovides.isAllocatable
      apply (ensures_assignOne_room hproceeds.sound (hprovides.healthy hhealthy.turnedAway) hwanted
        hroom' opens).imp
      · rintro grant e ⟨hserved, hrest⟩
        exact hprovides.of_turnedAway.served hserved hrest
      · exact fun _ _ hfalse => hfalse.elim
    | error error =>
      obtain ⟨⟨rfl, hlacks⟩, -⟩ := hopening
      have hnever := hlacks.isRetryable
      dsimp only
      split
      · cases ‹Except.error error = _›
      · rename_i heq
        cases heq
        cases hnever
      · rename_i heq
        cases heq
        exact ⟨rfl, hlacks⟩

theorem ensures_assignOne_zero {request : RowRequest} (hzero : request.count = 0) (opens : Nat) :
    Ensures (assignOne request opens) c (fun _ _ => False)
      (fun error d => error = .invalidArgument .rowCountNotPositive ∧ d = c) := by
  obtain ⟨key, count⟩ := request
  obtain rfl : count = 0 := hzero
  cases opens with
  | zero => exact ⟨rfl, rfl⟩
  | succ opens => exact ⟨rfl, rfl⟩

/-- No client is told to try again. -/
theorem ensures_assignOne_final {request : RowRequest} (h : c.Sound)
    (hhealthy : c.Healthy (n + 1)) (opens : Nat) : Ensures (assignOne request (opens + 1)) c
      (fun _ _ => True) (fun error _ => error.isRetryable = false) := by
  by_cases hzero : request.count = 0
  · apply (ensures_assignOne_zero hzero (opens + 1)).imp
    · exact fun _ _ _ => trivial
    · rintro error d ⟨rfl, -⟩
      rfl
  · cases hroom : c.allocator.room? request.key with
    | some target =>
      apply (ensures_assignOne_room h hhealthy hzero hroom (opens + 1)).imp
      · exact fun _ _ _ => trivial
      · exact fun _ _ hfalse => hfalse.elim
    | none =>
      apply (ensures_assignOne_no_room h hhealthy hzero hroom opens).imp
      · exact fun _ _ _ => trivial
      · exact fun _ _ hlacks => hlacks.2.isRetryable

/--
What a request for rows is answered where no calls are refused, if it may open a segment.
The first of these applies: no rows are wanted; a segment of the key takes rows; something
is missing; one segment is opened. Records change only as said: the target by the rows
that are granted, or the new segment, in whose favour the old target is superseded.
-/
theorem assignOne_exact {c₀ : Coordinator} {events : List Event} (hinitial : c₀.Initial)
    (hrun : Run c₀ events c) (hhealthy : c.Healthy 1)
    (haccepted : ∀ id collection, c.store.metadata.collection? id = some collection →
      collection.Accepted) (request : RowRequest) {opens : Nat} (hopens : 1 ≤ opens) :
    (request.count = 0 →
      assignOne request opens c = .error (.invalidArgument .rowCountNotPositive) c) ∧
    (request.count ≠ 0 → ∀ target, c.allocator.segments.get? target.id = some target →
      target.key = request.key → target.isAllocatable = true →
      ∃ grant d, assignOne request opens c = .ok grant d ∧
        Served request.count target grant c.allocator d.allocator ∧
        d = { c with allocator := d.allocator }) ∧
    (request.count ≠ 0 → (∀ id segment, c.allocator.segments.get? id = some segment →
      segment.key = request.key → segment.isAllocatable = false) →
      (∀ error, c.obstacle? request.key = some error →
        assignOne request opens c = .error error c.turnedAway) ∧
      (c.obstacle? request.key = none →
        ∃ grant d segment, assignOne request opens c = .ok grant d ∧
          Provides request.key grant.count segment c d ∧
          grant.rows = (segment.id, 0, min request.count segment.capacity))) ∧
    ∀ error d, assignOne request opens c = .error error d → error.isRetryable = false := by
  have hsound : c.Sound := (hrun.tells hinitial.sound).proceeds.sound
  obtain ⟨opens, rfl⟩ := Nat.exists_eq_add_of_le' hopens
  refine ⟨?_, ?_, ?_, fun _ _ => (ensures_assignOne_final hsound hhealthy opens).error⟩
  · exact fun hzero => eq_error_of_ensures (ensures_assignOne_zero hzero (opens + 1))
  · intro hwanted target hget hkey hallocatable
    have hroom := (Allocator.room?_eq_some_iff hsound.allocator).2 ⟨hget, hkey, hallocatable⟩
    obtain ⟨grant, hok, hserved⟩ :=
      (ensures_assignOne_room hsound hhealthy hwanted hroom (opens + 1)).attempt_done
    exact ⟨grant, _, eq_ok_of_attempt hok, hserved⟩
  · intro hwanted hno
    have hroom := Allocator.room?_eq_none hsound.allocator hno
    have hanswer := ensures_assignOne_no_room hsound hhealthy hwanted hroom opens
    cases hresult : assignOne request (opens + 1) c with
    | ok grant d =>
      obtain ⟨segment, hprovides, hrows⟩ := hanswer.ok hresult
      refine ⟨fun error hmissing => ?_, fun _ => ⟨grant, d, segment, rfl, hprovides, hrows⟩⟩
      cases hmissing.symm.trans hprovides.unobstructed
    | error error d =>
      obtain ⟨rfl, hlacks⟩ := hanswer.error hresult
      have hobstacle := hlacks.obstacle haccepted
      refine ⟨fun error' hmissing => ?_, fun hnothing => ?_⟩
      · cases hmissing.symm.trans hobstacle
        rfl
      · cases hnothing.symm.trans hobstacle

/-- All ten rows of the only segment have been granted. -/
def full : Coordinator :=
  (performAll assigning onMemory).2

theorem healthy_full : full.Healthy 4 where
  writable := ⟨⟨by decide +kernel, by decide +kernel, by decide +kernel⟩, by decide +kernel⟩
  readable := by decide +kernel
  drawable := by decide +kernel
  distinct := by decide +kernel
  unused := by
    have hall : (full.allocator.ids.clock.coming 4).all
        (fun id => (full.allocator.segments.get? ⟨id⟩).isNone) = true := by decide +kernel
    exact fun id hmem => Option.isNone_iff_eq_none.1 (List.all_eq_true.1 hall id hmem)

/-- The only collection is the one that was added. -/
theorem accepted_full (id : CollectionId) (collection : Collection)
    (h : full.store.metadata.collection? id = some collection) : collection.Accepted := by
  have hadded : ∀ entry ∈ full.store.metadata.records.collections.toList,
      entry.2 = ⟨⟨1⟩, ⟨"schema", [⟨"field", .int64, 0⟩]⟩, [⟨2⟩]⟩ := by decide +kernel
  obtain rfl := hadded (id, collection) (SortedMap.mem_toList_iff.2 h)
  exact ⟨[⟨2⟩], onMemory.store.metadata, _, eq_ok_of_attempt (by decide +kernel)⟩

/-- Five more rows take a second segment, and the full one gives way; a partition is missing. -/
theorem assignOne_exact_full :
    (∃ grant d, assignOne ⟨⟨⟨1⟩, ⟨2⟩, "channel-1_0"⟩, 5⟩ 1 full = .ok grant d ∧
      grant.rows = (⟨2⟩, 0, 5) ∧
      (d.allocator.segments.get? ⟨1⟩).map Segment.superseded = some true) ∧
    assignOne ⟨⟨⟨1⟩, ⟨3⟩, "channel-1_0"⟩, 5⟩ 1 full =
      .error (.notFound (.partition ⟨3⟩)) full.turnedAway := by
  have hrun : Run onMemory (performAll assigning onMemory).1 full := run_performAll ..
  have hhealthy : full.Healthy 1 := healthy_full.mono.mono.mono
  have hexact (request : RowRequest) :=
    assignOne_exact initial_onMemory hrun hhealthy accepted_full request (Nat.le_refl 1)
  have hfull : ∀ id segment, full.allocator.segments.get? id = some segment →
      segment.isAllocatable = false := by
    have hall : ∀ entry ∈ full.allocator.segments.toList, entry.2.isAllocatable = false := by
      decide +kernel
    exact fun id segment hget => hall (id, segment) (SortedMap.mem_toList_iff.2 hget)
  constructor
  · obtain ⟨-, -, hopening, -⟩ := hexact ⟨⟨⟨1⟩, ⟨2⟩, "channel-1_0"⟩, 5⟩
    obtain ⟨-, hopens⟩ := hopening (by decide) fun id segment hget _ => hfull id segment hget
    obtain ⟨grant, d, segment, hok, hprovides, hrows⟩ := hopens (by decide +kernel)
    refine ⟨grant, d, hok, hrows.trans ?_, ?_⟩
    · have hcapacity : segment.capacity = 10 := by
        obtain ⟨collection, width, hcollection, hwidth, hcapacity⟩ := hprovides.capacity
        have hadded : full.store.metadata.collection? ⟨1⟩ =
            some ⟨⟨1⟩, ⟨"schema", [⟨"field", .int64, 0⟩]⟩, [⟨2⟩]⟩ := by decide +kernel
        cases hcollection.symm.trans hadded
        cases hwidth
        exact hcapacity.trans (by decide +kernel)
      rw [hprovides.opens.numbered, hcapacity]
      decide +kernel
    · rw [hprovides.opens.segments, hprovides.opens.numbered, if_neg (by decide +kernel)]
      decide +kernel
  · obtain ⟨-, -, hopening, -⟩ := hexact ⟨⟨⟨1⟩, ⟨3⟩, "channel-1_0"⟩, 5⟩
    obtain ⟨hmissing, -⟩ := hopening (by decide) fun id segment hget _ => hfull id segment hget
    exact hmissing _ (by decide +kernel)

end Coordinator

end IngestCoordinator
