-- SUMMARY: What a request to seal a collection makes of each of its segments, whatever writes fail.
import IngestCoordinator.Proofs.Allocator.Emptying
import IngestCoordinator.Proofs.Allocator.Readiness
import IngestCoordinator.Proofs.Allocator.Shutting

/-!
# Clearing a collection

A request to seal a collection goes through its growing segments one by one. A segment
is sealed if its grants have expired, and superseded and retired otherwise. One whose
write is refused stays as it is, and the others are done all the same. What has not
been sealed is listed once, by number. Unless a write has been refused the collection
takes no rows from then on, until another segment of it is opened.
-/

namespace IngestCoordinator

open Operation

/-! ## One segment -/

namespace Segment

/-- The segment as a request to seal it leaves it: sealed if that is safe, else superseded. -/
def cleared (watermark : Timestamp) (segment : Segment) : Segment :=
  if segment.isSafeToSeal watermark then segment.closedAt watermark
  else { segment with superseded := true }

/-- What is answered to the request for one segment. -/
def clearing (watermark : Timestamp) (segment : Segment) : SealStep :=
  if segment.isSafeToSeal watermark then .sealed (segment.closedAt watermark) else .deferred

variable {segment : Segment} {watermark : Timestamp}

theorem cleared_of_safe (h : segment.isSafeToSeal watermark = true) :
    segment.cleared watermark = segment.closedAt watermark := by
  simp [cleared, h]

theorem cleared_of_late (h : segment.isSafeToSeal watermark = false) :
    segment.cleared watermark = { segment with superseded := true } := by
  simp [cleared, h]

theorem superseded_cleared : (segment.cleared watermark).superseded = true := by
  unfold cleared
  split <;> rfl

/-- What is not safe grows on. -/
theorem growing_cleared_iff : (segment.cleared watermark).state = .growing ↔
    segment.state = .growing ∧ segment.isSafeToSeal watermark = false := by
  cases hsafe : segment.isSafeToSeal watermark with
  | true => simp [cleared_of_safe hsafe, closedAt]
  | false => simp [cleared_of_late hsafe]

/-- A growing segment is written unless it has been superseded and still waits. -/
theorem cleared_ne (hgrowing : segment.state = .growing)
    (h : segment.lastExpireTime ≤ watermark ∨ segment.superseded = false) :
    segment.cleared watermark ≠ segment := by
  intro heq
  have hstate := growing_cleared_iff.1 ((congrArg Segment.state heq).trans hgrowing)
  have hflag := (congrArg Segment.superseded heq).symm.trans superseded_cleared
  rcases h with hsafe | hopen
  · exact absurd (decide_eq_true hsafe) (ne_true_of_eq_false hstate.2)
  · exact absurd hopen (ne_false_of_eq_true hflag)

end Segment

namespace SealOutcome

/-- What has become of some segments, and then of others. -/
def append (outcome outcome' : SealOutcome) : SealOutcome where
  sealed := outcome.sealed ++ outcome'.sealed
  failed := outcome.failed ++ outcome'.failed

/-- What is listed of one segment, by the answer to the attempt to seal it. -/
def ofStep (id : SegmentId) : Except Error SealStep → SealOutcome
  | .ok (.sealed segment) => { sealed := [segment] }
  | .ok .skipped => {}
  | .ok .deferred | .error _ => { failed := [id] }

variable {segment found : Segment} {watermark : Timestamp} {id id' : SegmentId}

theorem mem_sealed_clearing :
    found ∈ (ofStep id (.ok (segment.clearing watermark))).sealed ↔
      segment.isSafeToSeal watermark = true ∧ found = segment.closedAt watermark := by
  cases hsafe : segment.isSafeToSeal watermark <;> simp [ofStep, Segment.clearing, hsafe]

theorem mem_failed_clearing :
    id' ∈ (ofStep id (.ok (segment.clearing watermark))).failed ↔
      segment.isSafeToSeal watermark = false ∧ id' = id := by
  cases hsafe : segment.isSafeToSeal watermark <;> simp [ofStep, Segment.clearing, hsafe]

end SealOutcome

/-- The segments that the index names for a key, by number. -/
def KeyIndex.ids (index : KeyIndex) (key : SegmentKey) : List SegmentId :=
  ((index.get? key).map KeyEntry.segmentIds).getD []

namespace Allocator

variable {a b c : Allocator} {key : SegmentKey} {keys keys' : List SegmentKey} {id : SegmentId}
  {ids ids' refused refused' : List SegmentId} {segment updated : Segment} {watermark : Timestamp}
  {outcome outcome' : SealOutcome} {collection : CollectionId}

/-- The store may refuse to write the segment: a switch is set, or the backend is ill. -/
def Refuses (a : Allocator) (id : SegmentId) : Prop :=
  a.store.faults.update.contains id = true ∨ ¬ a.store.metadata.backend.Healthy

/-- The segment grows under the key. -/
def Grows (a : Allocator) (key : SegmentKey) (id : SegmentId) : Prop :=
  ∃ segment, a.segments.get? id = some segment ∧ segment.key = key ∧ segment.state = .growing

/-- A change that the record allows is made if the segment's switch is not set, or refused. -/
theorem ensures_update_or_refused {change : Segment → Except Error Segment}
    (hget : a.segments.get? id = some segment) (hok : change segment = .ok updated)
    (hid : updated.id = id) :
    Ensures (update id change) a
      (fun found b => found = updated ∧ Stored updated a b ∧
        a.store.faults.update.contains id = false)
      (fun _ b => a.Untouched b ∧ a.Refuses id) := by
  simp only [update, onStore, ensures_onPart, GuardedStore.updateSegment, ensures_bind, ensures_get]
  split
  · rename_i hswitch
    exact ⟨.refl a, .inl hswitch⟩
  · rename_i hswitch
    simp only [GuardedStore.onMetadata, ensures_onPart]
    apply (Metadata.ensures_updateSegment id change).imp
    · rintro found m ⟨segment', hget', hok', -, hstored⟩
      cases hget.symm.trans hget'
      cases hok.symm.trans hok'
      exact ⟨rfl, ⟨hstored, rfl⟩, by simpa using hswitch⟩
    · rintro e m ⟨huntouched, hill⟩
      exact ⟨⟨huntouched, rfl⟩, .inr (hill segment updated hget hok hid)⟩

/--
The growing segments `ids`, which are under some keys, have been sealed or superseded
one after another, but for those whose write was refused.
-/
structure Clears (keys : List SegmentKey) (ids : List SegmentId) (watermark : Timestamp)
    (refused : List SegmentId) (outcome : SealOutcome) (a b : Allocator) : Prop where
  consistent : b.Consistent
  faults : b.store.faults = a.store.faults
  healthy : a.store.metadata.backend.Healthy → b.store.metadata.backend.Healthy
  index : ∀ key ∉ keys, b.index.get? key = a.index.get? key
  among : ∀ id ∈ refused, id ∈ ids ∧ a.Refuses id
  /-- A switch that is set is met unless there is nothing to write. -/
  met : ∀ id ∈ ids, a.store.faults.update.contains id = true → ∀ segment,
    a.segments.get? id = some segment → segment.cleared watermark ≠ segment → id ∈ refused
  stored : ∀ id, b.segments.get? id = (a.segments.get? id).map fun segment =>
    if id ∈ ids ∧ id ∉ refused then segment.cleared watermark else segment
  sealed : ∀ segment, segment ∈ outcome.sealed ↔ segment.id ∈ ids ∧ segment.id ∉ refused ∧
    ∃ old, a.segments.get? segment.id = some old ∧ old.isSafeToSeal watermark = true ∧
      segment = old.closedAt watermark
  failed : ∀ id, id ∈ outcome.failed ↔ id ∈ ids ∧ (id ∈ refused ∨
    ∃ old, a.segments.get? id = some old ∧ old.isSafeToSeal watermark = false)
  nodup : outcome.failed.Nodup

theorem Clears.nil (h : a.Consistent) : Clears [] [] watermark [] {} a a where
  consistent := h
  faults := rfl
  healthy := id
  index _ _ := rfl
  among _ hmem := nomatch hmem
  met _ hmem := nomatch hmem
  stored id := by simp
  sealed segment := by simp
  failed id := by simp
  nodup := .nil

theorem Clears.get?_of_not_mem (h : Clears keys ids watermark refused outcome a b)
    (hno : id ∉ ids) : b.segments.get? id = a.segments.get? id := by
  rw [h.stored]
  simp [hno]

theorem Clears.refuses (h : Clears keys ids watermark refused outcome a b)
    (hrefuses : b.Refuses id) : a.Refuses id := by
  rcases hrefuses with hswitch | hill
  · left
    rwa [← h.faults]
  · exact .inr fun hhealthy => hill (h.healthy hhealthy)

/-- Only writes of these segments are refused. -/
theorem Clears.not_mem_refused (h : Clears keys ids watermark refused outcome a b)
    (hno : id ∉ ids) : id ∉ refused :=
  fun hrefused => hno (h.among id hrefused).1

section

variable (h : Clears keys ids watermark refused outcome a b)
  (h' : Clears keys' ids' watermark refused' outcome' b c) (hapart : ∀ id ∈ ids', id ∉ ids)

include h h' hapart

/-- A segment is written as one of the first, or as one of the others, or not at all. -/
theorem Clears.stored_append (id : SegmentId) :
    c.segments.get? id = (a.segments.get? id).map fun segment =>
      if id ∈ ids ++ ids' ∧ id ∉ refused ++ refused' then segment.cleared watermark
      else segment := by
  rw [h'.stored, h.stored]
  cases a.segments.get? id with
  | none => rfl
  | some old =>
    by_cases hmem : id ∈ ids
    · have hno : id ∉ ids' := fun hmem' => hapart id hmem' hmem
      simp [hmem, hno, h'.not_mem_refused hno]
    · by_cases hmem' : id ∈ ids'
      · simp [hmem, hmem', h.not_mem_refused hmem]
      · simp [hmem, hmem']

theorem Clears.mem_sealed_append (segment : Segment) :
    segment ∈ (outcome.append outcome').sealed ↔
      segment.id ∈ ids ++ ids' ∧ segment.id ∉ refused ++ refused' ∧
        ∃ old, a.segments.get? segment.id = some old ∧ old.isSafeToSeal watermark = true ∧
          segment = old.closedAt watermark := by
  rw [SealOutcome.append, List.mem_append, h.sealed, h'.sealed, List.mem_append, List.mem_append]
  constructor
  · rintro (⟨hmem, hno, hold⟩ | ⟨hmem, hno, hold⟩)
    · have hearlier := h'.not_mem_refused fun hmem' => hapart _ hmem' hmem
      exact ⟨.inl hmem, not_or.2 ⟨hno, hearlier⟩, hold⟩
    · rw [h.get?_of_not_mem (hapart _ hmem)] at hold
      exact ⟨.inr hmem, not_or.2 ⟨h.not_mem_refused (hapart _ hmem), hno⟩, hold⟩
  · rintro ⟨hmem | hmem, hno, hold⟩
    · exact .inl ⟨hmem, (not_or.1 hno).1, hold⟩
    · rw [← h.get?_of_not_mem (hapart _ hmem)] at hold
      exact .inr ⟨hmem, (not_or.1 hno).2, hold⟩

theorem Clears.mem_failed_append (id : SegmentId) :
    id ∈ (outcome.append outcome').failed ↔ id ∈ ids ++ ids' ∧ (id ∈ refused ++ refused' ∨
      ∃ old, a.segments.get? id = some old ∧ old.isSafeToSeal watermark = false) := by
  rw [SealOutcome.append, List.mem_append, h.failed, h'.failed, List.mem_append, List.mem_append]
  constructor
  · rintro (⟨hmem, hwhy⟩ | ⟨hmem, hwhy⟩)
    · exact ⟨.inl hmem, hwhy.imp_left .inl⟩
    · rw [h.get?_of_not_mem (hapart id hmem)] at hwhy
      exact ⟨.inr hmem, hwhy.imp_left .inr⟩
  · rintro ⟨hmem | hmem, hwhy⟩
    · have hearlier := h'.not_mem_refused fun hmem' => hapart id hmem' hmem
      exact .inl ⟨hmem, hwhy.imp_left fun hor => hor.resolve_right hearlier⟩
    · rw [← h.get?_of_not_mem (hapart id hmem)] at hwhy
      have hfresh := h.not_mem_refused (hapart id hmem)
      exact .inr ⟨hmem, hwhy.imp_left fun hor => hor.resolve_left hfresh⟩

/-- Some segments, and then others. -/
theorem Clears.append :
    Clears (keys ++ keys') (ids ++ ids') watermark (refused ++ refused') (outcome.append outcome')
      a c where
  consistent := h'.consistent
  faults := h'.faults.trans h.faults
  healthy hhealthy := h'.healthy (h.healthy hhealthy)
  index key hno := by
    rw [List.mem_append, not_or] at hno
    exact (h'.index key hno.2).trans (h.index key hno.1)
  among id hmem := by
    rcases List.mem_append.1 hmem with hmem | hmem
    · exact ⟨List.mem_append_left _ (h.among id hmem).1, (h.among id hmem).2⟩
    · exact ⟨List.mem_append_right _ (h'.among id hmem).1, h.refuses (h'.among id hmem).2⟩
  met id hmem hswitch segment hget hne := by
    rcases List.mem_append.1 hmem with hmem | hmem
    · exact List.mem_append_left _ (h.met id hmem hswitch segment hget hne)
    · rw [← h.faults] at hswitch
      rw [← h.get?_of_not_mem (hapart id hmem)] at hget
      exact List.mem_append_right _ (h'.met id hmem hswitch segment hget hne)
  stored := h.stored_append h' hapart
  sealed := h.mem_sealed_append h' hapart
  failed := h.mem_failed_append h' hapart
  nodup := by
    apply List.nodup_append'.2
    refine ⟨h.nodup, h'.nodup, ?_⟩
    intro id hmem hmem'
    exact hapart id ((h'.failed id).1 hmem').1 ((h.failed id).1 hmem).1

end

/-- Dropping keys without a segment from the index. -/
theorem Clears.prune (h : Clears [key] ids watermark refused outcome a b) :
    Clears [key] ids watermark refused outcome a { b with index := b.index.prune key } :=
  { h with
    consistent := h.consistent.prune key
    index := by
      intro key' hno
      have hne : key' ≠ key := fun heq => hno (List.mem_singleton.2 heq)
      exact (KeyIndex.get?_prune_of_ne hne).trans (h.index key' hno) }

/-! ## One segment of a key -/

/-- The segment has been cleared, and nothing else has changed. -/
theorem Clears.single {step : SealStep} (hget : a.segments.get? id = some segment)
    (hid : segment.id = id) (hconsistent : b.Consistent) (hfaults : b.store.faults = a.store.faults)
    (hhealthy : a.store.metadata.backend.Healthy → b.store.metadata.backend.Healthy)
    (hindex : ∀ key' ∉ [key], b.index.get? key' = a.index.get? key')
    (hmet : a.store.faults.update.contains id = true → segment.cleared watermark = segment)
    (hsegments : ∀ id', b.segments.get? id' =
      if id' = id then some (segment.cleared watermark) else a.segments.get? id')
    (hstep : step = segment.clearing watermark) :
    Clears [key] [id] watermark [] (.ofStep id (.ok step)) a b where
  consistent := hconsistent
  faults := hfaults
  healthy := hhealthy
  index := hindex
  among _ hmem := nomatch hmem
  met id' hmem hswitch old hold hne := by
    obtain rfl := List.mem_singleton.1 hmem
    cases hget.symm.trans hold
    exact absurd (hmet hswitch) hne
  stored id' := by
    rw [hsegments]
    split
    · rename_i heq
      simp [heq, hget]
    · rename_i hne
      simp [hne]
  sealed found := by
    rw [hstep, SealOutcome.mem_sealed_clearing]
    constructor
    · rintro ⟨hsafe, rfl⟩
      have hold : a.segments.get? (segment.closedAt watermark).id = some segment :=
        (congrArg a.segments.get? hid).trans hget
      exact ⟨List.mem_singleton.2 hid, List.not_mem_nil, segment, hold, hsafe, rfl⟩
    · rintro ⟨hmem, -, old, hold, hsafe, hclosed⟩
      rw [List.mem_singleton.1 hmem] at hold
      cases hget.symm.trans hold
      exact ⟨hsafe, hclosed⟩
  failed id' := by
    rw [hstep, SealOutcome.mem_failed_clearing]
    constructor
    · rintro ⟨hsafe, rfl⟩
      exact ⟨List.mem_singleton_self _, .inr ⟨segment, hget, hsafe⟩⟩
    · rintro ⟨hmem, hrefused | ⟨old, hold, hsafe⟩⟩
      · cases hrefused
      · obtain rfl := List.mem_singleton.1 hmem
        cases hget.symm.trans hold
        exact ⟨hsafe, rfl⟩
  nodup := by
    unfold SealOutcome.ofStep
    split <;> simp

/-- The write of the segment has been refused. -/
theorem Clears.of_refused {e : Error} (h : a.Consistent) (huntouched : a.Untouched b)
    (hrefuses : a.Refuses id) :
    Clears [key] [id] watermark [id] (.ofStep id (.error e)) a b where
  consistent := h.untouched huntouched
  faults := by rw [huntouched.rest]
  healthy := huntouched.metadata.healthy
  index key' _ := by rw [huntouched.rest]
  among id' hmem := by
    obtain rfl := List.mem_singleton.1 hmem
    exact ⟨hmem, hrefuses⟩
  met id' hmem _ _ _ _ := hmem
  stored id' := by simp [huntouched.segments]
  sealed found := by
    simp only [SealOutcome.ofStep, List.not_mem_nil, false_iff]
    rintro ⟨hmem, hno, -⟩
    exact hno hmem
  failed id' := by
    simp only [SealOutcome.ofStep]
    constructor
    · exact fun hmem => ⟨hmem, .inl hmem⟩
    · exact fun h => h.1
  nodup := List.nodup_singleton id

/-- The segment has been written as it is to become, and moved in the index. -/
theorem Stored.clears {step : SealStep} {index : KeyIndex} {metrics : SegmentMetrics}
    (h : Stored (segment.cleared watermark) a b) (hget : a.segments.get? id = some segment)
    (hid : segment.id = id) (hswitch : a.store.faults.update.contains id = false)
    (hconsistent : Consistent { b with index, metrics })
    (hindex : ∀ key' ∉ [key], index.get? key' = b.index.get? key')
    (hstep : step = segment.clearing watermark) :
    Clears [key] [id] watermark [] (.ofStep id (.ok step)) a { b with index, metrics } := by
  have hnumber : (segment.cleared watermark).id = id := by
    rw [← hid]
    unfold Segment.cleared
    split <;> rfl
  apply Clears.single hget hid hconsistent
  case hfaults => rw [h.rest]
  case hhealthy => exact h.metadata.healthy
  case hindex =>
    intro key' hno
    refine (hindex key' hno).trans ?_
    rw [h.rest]
  case hmet =>
    intro hset
    rw [hswitch] at hset
    cases hset
  case hsegments =>
    intro id'
    change b.segments.get? id' = _
    rw [h.segments, hnumber, SortedMap.get?_insert]
  case hstep => exact hstep

/-- A segment that is safe is closed as it is to be, unless its write is refused. -/
theorem ensures_sealSegment_or_refused (hget : a.segments.get? id = some segment)
    (hid : segment.id = id) (hgrowing : segment.state = .growing)
    (hsafe : segment.isSafeToSeal watermark = true) :
    Ensures (sealSegment id watermark) a
      (fun found c => found = segment.closedAt watermark ∧ ∃ b metrics, c = { b with metrics } ∧
        Stored (segment.closedAt watermark) a b ∧ a.store.faults.update.contains id = false)
      (fun _ b => a.Untouched b ∧ a.Refuses id) := by
  have hok : segment.sealAt watermark = .ok (segment.closedAt watermark) :=
    Segment.sealAt_eq_ok_iff.2 (.inr ⟨hgrowing, of_decide_eq_true hsafe, rfl⟩)
  simp only [sealSegment, ensures_bind]
  apply (ensures_update_or_refused hget hok hid).imp
  · rintro found b ⟨hfound, hstored, hswitch⟩
    exact ⟨hfound, b, _, rfl, hstored, hswitch⟩
  · exact fun _ _ hrefused => hrefused

/-- A segment that has been superseded before and still waits: there is nothing to write. -/
theorem Clears.of_waiting (h : a.Consistent) (hget : a.segments.get? id = some segment)
    (hkey : segment.key = key) (hgrowing : segment.state = .growing)
    (hsafe : segment.isSafeToSeal watermark = false) (hflag : segment.superseded = true) :
    Clears [key] [id] watermark [] (.ofStep id (.ok .deferred)) a
      { a with index := a.index.retire key id } := by
  have hsame : segment.cleared watermark = segment := by
    rw [Segment.cleared_of_late hsafe, ← hflag]
  have hplace : a.segments.place? id = some (key, true) := by
    rw [Segments.place?_of_get? hget, if_pos hgrowing, hkey, hflag]
  apply Clears.single hget (h.coherent.numbered hget) (h.retire hplace)
  case hfaults => rfl
  case hhealthy => exact fun hhealthy => hhealthy
  case hindex =>
    intro key' hno
    exact KeyIndex.get?_retire_of_ne fun heq => hno (List.mem_singleton.2 heq)
  case hmet => exact fun _ => hsame
  case hsegments =>
    intro id'
    rw [hsame, ← hget]
    split
    · rename_i heq
      rw [heq]
      rfl
    · rfl
  case hstep => simp [Segment.clearing, hsafe]

theorem ensures_sealOrDefer_clears (watermark : Timestamp) (h : a.Consistent)
    (hgrows : a.Grows key id) :
    Ensures (sealOrDefer key id watermark) a
      (fun step b => Clears [key] [id] watermark [] (.ofStep id (.ok step)) a b)
      (fun e b => Clears [key] [id] watermark [id] (.ofStep id (.error e)) a b) := by
  obtain ⟨segment, hget, hkey, hgrowing⟩ := hgrows
  have hid : segment.id = id := h.coherent.numbered hget
  simp only [sealOrDefer, ensures_bind, ensures_segment?_iff h.truthful,
    filter_growing hget hgrowing]
  cases hsafe : segment.isSafeToSeal watermark with
  | true =>
    simp only [if_true, ensures_bind]
    apply ((ensures_seal_forget watermark h hget hkey hgrowing).and
      (ensures_sealSegment_or_refused hget hid hgrowing hsafe)).imp
    · rintro found c ⟨hconsistent, rfl, b, metrics, rfl, hstored, hswitch⟩
      rw [← Segment.cleared_of_safe hsafe] at hstored
      apply hstored.clears hget hid hswitch hconsistent
      case hindex =>
        intro key' hno
        exact KeyIndex.get?_forget_of_ne fun heq => hno (List.mem_singleton.2 heq)
      case hstep => simp [Segment.clearing, hsafe]
    · rintro e b ⟨-, huntouched, hrefuses⟩
      exact .of_refused h huntouched hrefuses
  | false =>
    simp only [Bool.false_eq_true, if_false]
    cases hflag : segment.superseded with
    | false =>
      have hok : segment.supersede = .ok { segment with superseded := true } :=
        Segment.supersede_eq_ok_iff.2 (.inl ⟨hgrowing, rfl⟩)
      simp only [Bool.not_false, if_true, ensures_bind]
      apply ((ensures_supersede_retire h hget hkey hgrowing).and
        (ensures_update_or_refused hget hok hid)).imp
      · rintro found b ⟨⟨hconsistent, -⟩, -, hstored, hswitch⟩
        rw [← Segment.cleared_of_late hsafe] at hstored
        apply hstored.clears hget hid hswitch hconsistent
        case hindex =>
          intro key' hno
          exact KeyIndex.get?_retire_of_ne fun heq => hno (List.mem_singleton.2 heq)
        case hstep => simp [Segment.clearing, hsafe]
      · rintro e b ⟨-, huntouched, hrefuses⟩
        exact .of_refused h huntouched hrefuses
    | true => exact .of_waiting h hget hkey hgrowing hsafe hflag

/-! ## Segments one after another -/

theorem sealEach_cons (key : SegmentKey) (watermark : Timestamp) (id : SegmentId)
    (ids : List SegmentId) (a : Allocator) :
    sealEach key watermark (id :: ids) a =
      let (step, b) := (sealOrDefer key id watermark).attempt a
      let (rest, c) := sealEach key watermark ids b
      ((SealOutcome.ofStep id step).append rest, c) := by
  simp only [sealEach, step_bind]
  generalize (sealOrDefer key id watermark).attempt a = attempted
  obtain ⟨step, b⟩ := attempted
  cases step with
  | error e => rfl
  | ok step => cases step <;> rfl

/-- The attempt to seal a segment clears it, unless it is refused. -/
theorem clears_sealOrDefer (watermark : Timestamp) (h : a.Consistent) (hgrows : a.Grows key id) :
    ∃ refused, Clears [key] [id] watermark refused
      (.ofStep id ((sealOrDefer key id watermark).attempt a).1) a
      ((sealOrDefer key id watermark).attempt a).2 := by
  have hattempt := (ensures_sealOrDefer_clears watermark h hgrows).attempt
  cases hresult : ((sealOrDefer key id watermark).attempt a).1 with
  | ok step =>
    rw [hresult] at hattempt
    exact ⟨[], hattempt⟩
  | error e =>
    rw [hresult] at hattempt
    exact ⟨[id], hattempt⟩

theorem Clears.mono (h : Clears keys ids watermark refused outcome a b) (hsub : keys ⊆ keys') :
    Clears keys' ids watermark refused outcome a b :=
  { h with index := fun key hno => h.index key fun hmem => hno (hsub hmem) }

theorem clears_sealEach (watermark : Timestamp) (hnodup : ids.Nodup) (h : a.Consistent)
    (hgrows : ∀ id ∈ ids, a.Grows key id) :
    ∃ refused, Clears [key] ids watermark refused (sealEach key watermark ids a).1 a
      (sealEach key watermark ids a).2 := by
  induction ids generalizing a with
  | nil => exact ⟨[], (Clears.nil h).mono (List.nil_subset _)⟩
  | cons id ids ih =>
    obtain ⟨hfresh, hnodup⟩ := List.nodup_cons.1 hnodup
    obtain ⟨hid, hids⟩ := List.forall_mem_cons.1 hgrows
    obtain ⟨refused, hfirst⟩ := clears_sealOrDefer watermark h hid
    have hapart : ∀ id' ∈ ids, id' ∉ [id] := by
      intro id' hmem hsame
      rw [List.mem_singleton.1 hsame] at hmem
      exact hfresh hmem
    obtain ⟨refused', hrest⟩ := ih hnodup hfirst.consistent fun id' hmem => by
      obtain ⟨segment, hget, hgrowing⟩ := hids id' hmem
      rw [← hfirst.get?_of_not_mem (hapart id' hmem)] at hget
      exact ⟨segment, hget, hgrowing⟩
    rw [sealEach_cons]
    exact ⟨refused ++ refused', (hfirst.append hrest hapart).mono (by simp)⟩

/-! ## Keys one after another -/

theorem nodup_segmentIds (entry : KeyEntry) : entry.segmentIds.Nodup := by
  unfold KeyEntry.segmentIds
  split
  · exact SortedMap.nodup_keys _
  · exact SortedMap.nodup_keys _

theorem nodup_ids (index : KeyIndex) (key : SegmentKey) : (index.ids key).Nodup := by
  unfold KeyIndex.ids
  cases index.get? key with
  | none => exact .nil
  | some entry => exact nodup_segmentIds entry

/-- The segments that the index names for a key are those that grow under it. -/
theorem Consistent.mem_ids_iff (h : a.Consistent) : id ∈ a.index.ids key ↔ a.Grows key id := by
  rw [Grows, ← h.agrees.tracked]
  constructor
  · intro hmem
    unfold KeyIndex.ids at hmem
    cases hentry : a.index.get? key with
    | none => simp [hentry] at hmem
    | some entry =>
      rw [hentry, Option.map_some, Option.getD_some, mem_segmentIds] at hmem
      rcases hmem with htarget | hretired
      · left
        simpa [KeyIndex.target?, hentry] using htarget
      · exact .inr ((KeyIndex.mem_retired_iff ..).2 ⟨entry, hentry, hretired⟩)
  · exact KeyIndex.Names.mem_segmentIds

theorem Grows.key_eq {key' : SegmentKey} (h : a.Grows key id) (h' : a.Grows key' id) :
    key' = key := by
  obtain ⟨segment, hget, hkey, -⟩ := h
  obtain ⟨segment', hget', hkey', -⟩ := h'
  cases hget.symm.trans hget'
  exact hkey'.symm.trans hkey

theorem Clears.ids_eq (h : Clears keys ids watermark refused outcome a b) (hno : key ∉ keys) :
    b.index.ids key = a.index.ids key := by
  rw [KeyIndex.ids, h.index key hno]
  rfl

theorem clears_sealKeys (watermark : Timestamp) (hnodup : keys.Nodup) (h : a.Consistent) :
    ∃ refused, Clears keys (keys.flatMap a.index.ids) watermark refused
      (sealKeys watermark keys a).1 a (sealKeys watermark keys a).2 := by
  induction keys generalizing a with
  | nil => exact ⟨[], .nil h⟩
  | cons key keys ih =>
    obtain ⟨hfresh, hnodup⟩ := List.nodup_cons.1 hnodup
    obtain ⟨refused, heach⟩ := clears_sealEach watermark (nodup_ids a.index key) h
      fun _ hmem => h.mem_ids_iff.1 hmem
    have hfirst := heach.prune
    obtain ⟨refused', hrest⟩ := ih hnodup hfirst.consistent
    -- The entries of later keys have not been touched yet.
    have hsame := List.flatMap_congr fun key' hmem =>
      hfirst.ids_eq fun heq => ne_of_mem_of_not_mem hmem hfresh (List.mem_singleton.1 heq)
    have hapart : ∀ id ∈ keys.flatMap a.index.ids, id ∉ a.index.ids key := by
      intro id hmem hmem'
      obtain ⟨key', hkey', hids⟩ := List.mem_flatMap.1 hmem
      have heq := (h.mem_ids_iff.1 hmem').key_eq (h.mem_ids_iff.1 hids)
      exact hfresh (heq ▸ hkey')
    rw [hsame] at hrest
    exact ⟨refused ++ refused', hfirst.append hrest hapart⟩

/-! ## All keys of a collection -/

/-- The segment grows in the collection. -/
def GrowsIn (a : Allocator) (collection : CollectionId) (id : SegmentId) : Prop :=
  ∃ segment, a.segments.get? id = some segment ∧ segment.collection = collection ∧
    segment.state = .growing

/-- Numbers that do not repeat ascend once they have been sorted. -/
theorem ascending_mergeSort {ids : List SegmentId} (h : ids.Nodup) :
    (ids.mergeSort fun id id' => (compare id id').isLE).Pairwise
      fun id id' => compare id id' = .lt := by
  have hsorted : (ids.mergeSort fun id id' => (compare id id').isLE).Pairwise
      fun id id' => (compare id id').isLE = true := by
    apply List.pairwise_mergeSort
    · exact fun _ _ _ => Std.TransCmp.isLE_trans
    · intro id id'
      have hswap : compare id' id = (compare id id').swap := Std.OrientedCmp.eq_swap
      rw [hswap]
      cases compare id id' <;> rfl
  have hnodup := (List.mergeSort_perm ids fun id id' => (compare id id').isLE).nodup_iff.2 h
  apply (hsorted.and hnodup).imp
  rintro id id' ⟨hle, hne⟩
  cases hcompare : compare id id' with
  | lt => rfl
  | eq => exact absurd (Std.compare_eq_iff_eq.1 hcompare) hne
  | gt =>
    rw [hcompare] at hle
    cases hle

theorem failed_sealAll (collection : CollectionId) (a : Allocator) :
    (sealAll collection a).1.failed =
      ((sealKeys a.watermark (a.index.keys.filter fun key => key.collection == collection)
        a).1.failed).mergeSort fun id id' => (compare id id').isLE :=
  rfl

/-- The growing segments of the collection are cleared, and the failures sorted. -/
theorem clears_sealAll (h : a.Consistent) (collection : CollectionId) :
    ∃ keys ids refused, Clears keys ids a.watermark refused (sealAll collection a).1 a
      (sealAll collection a).2 ∧ (∀ id, id ∈ ids ↔ a.GrowsIn collection id) ∧
      (sealAll collection a).1.failed.Pairwise fun id id' => compare id id' = .lt := by
  obtain ⟨refused, hclears⟩ := clears_sealKeys a.watermark
    (List.Nodup.filter (fun key => key.collection == collection) (SortedMap.nodup_keys a.index)) h
  have hperm := List.mergeSort_perm (sealKeys a.watermark
    (a.index.keys.filter fun key => key.collection == collection) a).1.failed
      fun id id' => (compare id id').isLE
  refine ⟨_, _, refused, { hclears with failed := ?_, nodup := ?_ }, ?_, ?_⟩
  · intro id
    exact hperm.mem_iff.trans (hclears.failed id)
  · exact hperm.nodup_iff.2 hclears.nodup
  · intro id
    simp only [List.mem_flatMap, List.mem_filter, beq_iff_eq, h.mem_ids_iff]
    constructor
    · rintro ⟨key, ⟨-, hcollection⟩, segment, hget, rfl, hgrowing⟩
      exact ⟨segment, hget, hcollection, hgrowing⟩
    · rintro ⟨segment, hget, hcollection, hgrowing⟩
      have hnames : a.index.Names segment.key id :=
        (h.agrees.tracked _ _).2 ⟨segment, hget, rfl, hgrowing⟩
      exact ⟨segment.key, ⟨hnames.mem_keys, hcollection⟩, segment, hget, rfl, hgrowing⟩
  · exact ascending_mergeSort hclears.nodup

/-! ## What is listed -/

/-- What is listed as sealed was safe, and is stored as it is listed. -/
theorem Clears.of_sealed (h : Clears keys ids watermark refused outcome a b)
    (hmem : segment ∈ outcome.sealed) : b.segments.get? segment.id = some segment ∧
      ∃ old, a.segments.get? segment.id = some old ∧ old.lastExpireTime ≤ watermark ∧
        segment = old.closedAt watermark := by
  obtain ⟨hid, hno, old, hold, hsafe, hclosed⟩ := (h.sealed segment).1 hmem
  refine ⟨?_, old, hold, of_decide_eq_true hsafe, hclosed⟩
  rw [h.stored, hold, Option.map_some, if_pos ⟨hid, hno⟩, Segment.cleared_of_safe hsafe, hclosed]

/-- What is listed as failed has been superseded and retired, or has been refused. -/
theorem Clears.of_failed (h : Clears keys ids watermark refused outcome a b)
    (hmem : id ∈ outcome.failed) (hget : a.segments.get? id = some segment)
    (hgrowing : segment.state = .growing) :
    watermark < segment.lastExpireTime ∧ id ∈ b.index.retired segment.key ∧
        b.segments.get? id = some { segment with superseded := true } ∨
      id ∈ refused ∧ b.segments.get? id = some segment := by
  obtain ⟨hid, hwhy⟩ := (h.failed id).1 hmem
  by_cases hrefused : id ∈ refused
  · right
    refine ⟨hrefused, ?_⟩
    rw [h.stored, hget, Option.map_some, if_neg fun hnow => hnow.2 hrefused]
  · left
    obtain ⟨old, hold, hlate⟩ := hwhy.resolve_left hrefused
    cases hget.symm.trans hold
    have hnow : b.segments.get? id = some { segment with superseded := true } := by
      rw [h.stored, hget, Option.map_some, if_pos ⟨hid, hrefused⟩, Segment.cleared_of_late hlate]
    have hretired : id ∈ b.index.retired segment.key :=
      (h.consistent.agrees.retired segment.key id).2 ⟨_, hnow, rfl, hgrowing, rfl⟩
    exact ⟨by simpa [Segment.isSafeToSeal] using hlate, hretired, hnow⟩

theorem Clears.apart (h : Clears keys ids watermark refused outcome a b)
    (hmem : id ∈ outcome.sealed.map Segment.id) : id ∉ outcome.failed := by
  intro hfailed
  obtain ⟨segment, hsegment, rfl⟩ := List.mem_map.1 hmem
  obtain ⟨-, hno, old, hold, hsafe, -⟩ := (h.sealed segment).1 hsegment
  rcases ((h.failed _).1 hfailed).2 with hrefused | ⟨old', hold', hlate⟩
  · exact hno hrefused
  · cases hold.symm.trans hold'
    exact absurd hsafe (ne_true_of_eq_false hlate)

variable (hids : ∀ id, id ∈ ids ↔ a.GrowsIn collection id)

include hids

theorem Clears.listed_iff (h : Clears keys ids watermark refused outcome a b)
    (hconsistent : a.Consistent) (id : SegmentId) :
    id ∈ outcome.sealed.map Segment.id ∨ id ∈ outcome.failed ↔ a.GrowsIn collection id := by
  rw [← hids]
  constructor
  · rintro (hmem | hfailed)
    · obtain ⟨segment, hsegment, rfl⟩ := List.mem_map.1 hmem
      exact ((h.sealed segment).1 hsegment).1
    · exact ((h.failed id).1 hfailed).1
  · intro hmem
    obtain ⟨old, hold, -, -⟩ := (hids id).1 hmem
    by_cases hrefused : id ∈ refused
    · exact .inr ((h.failed id).2 ⟨hmem, .inl hrefused⟩)
    · cases hsafe : old.isSafeToSeal watermark with
      | false => exact .inr ((h.failed id).2 ⟨hmem, .inr ⟨old, hold, hsafe⟩⟩)
      | true =>
        have hid : old.id = id := hconsistent.coherent.numbered hold
        refine .inl (List.mem_map.2 ⟨old.closedAt watermark, ?_, hid⟩)
        exact (h.sealed _).2 ⟨hid ▸ hmem, hid ▸ hrefused, old, hid ▸ hold, hsafe, rfl⟩

/-- A segment of the collection that grows afterwards is listed as failed. -/
theorem Clears.growsIn_iff (h : Clears keys ids watermark refused outcome a b)
    (hconsistent : a.Consistent) (id : SegmentId) :
    b.GrowsIn collection id ↔ id ∈ outcome.failed := by
  have hlisted := h.listed_iff hids hconsistent id
  constructor
  · rintro ⟨segment, hget, hcollection, hgrowing⟩
    by_cases hgrows : a.GrowsIn collection id
    · refine (hlisted.2 hgrows).resolve_left fun hmem => ?_
      obtain ⟨closed, hclosed, rfl⟩ := List.mem_map.1 hmem
      obtain ⟨hnow, old, -, -, rfl⟩ := h.of_sealed hclosed
      cases hget.symm.trans hnow
      cases hgrowing
    · rw [h.get?_of_not_mem fun hmem => hgrows ((hids id).1 hmem)] at hget
      exact absurd ⟨segment, hget, hcollection, hgrowing⟩ hgrows
  · intro hmem
    obtain ⟨old, hold, hcollection, hgrowing⟩ := hlisted.1 (.inr hmem)
    rcases h.of_failed hmem hold hgrowing with ⟨-, -, hnow⟩ | ⟨-, hnow⟩
    · exact ⟨_, hnow, hcollection, hgrowing⟩
    · exact ⟨_, hnow, hcollection, hgrowing⟩

/-- If every growing segment of the collection has been cleared, it is shut. -/
theorem Clears.shut (h : Clears keys ids watermark [] outcome a b) :
    b.segments.Shut collection := by
  intro id segment hget hcollection hgrowing
  rw [h.stored] at hget
  obtain ⟨old, hold, rfl⟩ := Option.map_eq_some_iff.1 hget
  by_cases hmem : id ∈ ids
  · simp [hmem, Segment.superseded_cleared]
  · simp only [hmem, false_and, if_false] at hcollection hgrowing
    exact absurd ((hids id).2 ⟨old, hold, hcollection, hgrowing⟩) hmem

omit hids

/--
Exactly the growing segments of the collection are listed, each as sealed or as failed.
What is sealed was safe and is sealed at the watermark; what has failed has been
superseded and retired, or has not been written at all because the store refused. No
other segment is written. If nothing was refused the collection takes no rows until one
of its segments is opened.
-/
theorem sealAll_exact {a₀ : Allocator} {log : List Returned} (hinitial : a₀.Initial)
    (hrun : Run asStored a₀ log a) (collection : CollectionId) :
    ∃ outcome b refused, sealAll collection a = (outcome, b) ∧
      (∀ id ∈ refused, a.GrowsIn collection id ∧ a.Refuses id) ∧
      (∀ id segment, a.segments.get? id = some segment → a.GrowsIn collection id →
        segment.lastExpireTime ≤ a.watermark ∨ segment.superseded = false →
        a.store.faults.update.contains id = true → id ∈ refused) ∧
      (∀ id, id ∈ outcome.sealed.map Segment.id → id ∉ outcome.failed) ∧
      (∀ id, id ∈ outcome.sealed.map Segment.id ∨ id ∈ outcome.failed ↔ a.GrowsIn collection id) ∧
      (∀ segment ∈ outcome.sealed, b.segments.get? segment.id = some segment ∧
        ∃ old, a.segments.get? segment.id = some old ∧ old.lastExpireTime ≤ a.watermark ∧
          segment = old.closedAt a.watermark) ∧
      (∀ id ∈ outcome.failed, ∃ old, a.segments.get? id = some old ∧
        (a.watermark < old.lastExpireTime ∧ id ∈ b.index.retired old.key ∧
            b.segments.get? id = some { old with superseded := true } ∨
          id ∈ refused ∧ b.segments.get? id = some old)) ∧
      (outcome.failed.Pairwise fun id id' => compare id id' = .lt) ∧
      (∀ id, ¬ a.GrowsIn collection id → b.segments.get? id = a.segments.get? id) ∧
      (outcome.allSealed = true ↔ ∀ id, ¬ b.GrowsIn collection id) ∧
      (refused = [] → ∀ log' c, Run (opensNone collection) b log' c → ∀ key wanted,
        key.collection = collection → wanted ≠ 0 →
          ∃ d, alloc key wanted c = .error (.noGrowingSegment key) d) := by
  have hconsistent : a.Consistent := hrun.consistent hinitial.consistent
  obtain ⟨keys, ids, refused, hclears, hids, hsorted⟩ := clears_sealAll hconsistent collection
  generalize hresult : sealAll collection a = result at hclears hsorted
  obtain ⟨outcome, b⟩ := result
  have hlisted := hclears.listed_iff hids hconsistent
  refine ⟨outcome, b, refused, rfl, ?_, ?_, fun id => hclears.apart, hlisted,
    fun segment => hclears.of_sealed, ?_, hsorted, ?_, ?_, ?_⟩
  · intro id hmem
    obtain ⟨hid, hrefuses⟩ := hclears.among id hmem
    exact ⟨(hids id).1 hid, hrefuses⟩
  · rintro id segment hget ⟨segment', hget', hcollection, hgrowing⟩ hneeds hswitch
    cases hget.symm.trans hget'
    have hid : id ∈ ids := (hids id).2 ⟨segment, hget, hcollection, hgrowing⟩
    exact hclears.met id hid hswitch segment hget (Segment.cleared_ne hgrowing hneeds)
  · intro id hmem
    obtain ⟨old, hold, -, hgrowing⟩ := (hlisted id).1 (.inr hmem)
    exact ⟨old, hold, hclears.of_failed hmem hold hgrowing⟩
  · intro id hno
    exact hclears.get?_of_not_mem fun hmem => hno ((hids id).1 hmem)
  · simp only [SealOutcome.allSealed, List.isEmpty_iff, List.eq_nil_iff_forall_not_mem,
      hclears.growsIn_iff hids hconsistent]
  · rintro rfl log' c hlater key wanted rfl hwanted
    obtain ⟨hconsistent', hshut⟩ := hlater.shut hclears.consistent (hclears.shut hids)
    exact alloc_of_shut hconsistent' hshut hwanted

/-- Nothing is refused where writes are not made to fail. -/
theorem not_refuses (h : a.store.Writable) (id : SegmentId) : ¬ a.Refuses id := by
  rintro (hswitch | hill)
  · rw [h.update] at hswitch
    cases hswitch
  · exact hill h.healthy

/-- The requests that add and open a segment of ten rows for a channel of a collection. -/
def opening (id : SegmentId) (channel : String) : List Request :=
  [.addSegment id ⟨⟨1⟩, ⟨2⟩, channel⟩ "group" none 10 0,
    .openSegment (.fresh id ⟨⟨1⟩, ⟨2⟩, channel⟩ "group" none 10 0)]

/-- With the watermark at 8, rows of two segments are granted until 8 and 9, and none of a third. -/
def clearing : List Request :=
  [.addCollection ⟨⟨1⟩, ⟨"schema", [⟨"field", .int64, 0⟩]⟩, [⟨2⟩]⟩, .sealReady 8] ++
    opening ⟨7⟩ "a" ++ opening ⟨8⟩ "b" ++ opening ⟨9⟩ "c" ++
    [.alloc ⟨⟨1⟩, ⟨2⟩, "a"⟩ 4, .alloc ⟨⟨1⟩, ⟨2⟩, "b"⟩ 4]

/-- The same, where writes of the third segment are made to fail. -/
def cleared : Allocator :=
  { (performAll clearing onMemory).2 with store.faults.update := .ofElems [⟨9⟩] }

theorem failed_cleared : (sealAll ⟨1⟩ cleared).1.failed = [⟨8⟩, ⟨9⟩] := by
  have hfailed : (sealKeys cleared.watermark
      (cleared.index.keys.filter fun key => key.collection == ⟨1⟩) cleared).1.failed =
        [⟨8⟩, ⟨9⟩] := by
    decide +kernel
  rw [failed_sealAll, hfailed]
  exact List.mergeSort_of_pairwise (by decide)

/--
The first segment is sealed, the second waits, the third is refused by its switch. Where
no switch is set, no rows of the second one's channel are left to grant.
-/
theorem sealAll_exact_mixed :
    (sealAll ⟨1⟩ cleared).1.sealed.map Segment.id = [⟨7⟩] ∧
      (sealAll ⟨1⟩ cleared).1.failed = [⟨8⟩, ⟨9⟩] ∧
      (∀ id, id ∈ [⟨7⟩] ∨ id ∈ [⟨8⟩, ⟨9⟩] ↔ cleared.GrowsIn ⟨1⟩ id) ∧
      ∃ c, alloc ⟨⟨1⟩, ⟨2⟩, "b"⟩ 1 (sealAll ⟨1⟩ (performAll clearing onMemory).2).2 =
        .error (.noGrowingSegment ⟨⟨1⟩, ⟨2⟩, "b"⟩) c := by
  have hrun := Run.performAll (show Admitted asStored clearing onMemory by decide +kernel)
  have hcleared : Run asStored onMemory _ cleared := hrun.snoc (.surroundings
    ⟨rfl, rfl, fun _ _ => rfl, rfl, rfl, rfl, rfl, rfl, rfl, rfl, rfl⟩)
  have hsealed : (sealAll ⟨1⟩ cleared).1.sealed.map Segment.id = [⟨7⟩] := by decide +kernel
  refine ⟨hsealed, failed_cleared, ?_, ?_⟩
  · obtain ⟨outcome, c, refused, hresult, -, -, -, hlisted, -⟩ :=
      sealAll_exact initial_onMemory hcleared ⟨1⟩
    have hfailed := failed_cleared
    rw [hresult] at hsealed hfailed
    rw [hsealed, hfailed] at hlisted
    exact hlisted
  · obtain ⟨outcome, c, refused, hresult, hrefused, -, -, -, -, -, -, -, -, hshut⟩ :=
      sealAll_exact initial_onMemory hrun ⟨1⟩
    have hwritable : (performAll clearing onMemory).2.store.Writable :=
      ⟨⟨by decide +kernel, by decide +kernel, by decide +kernel⟩, by decide +kernel⟩
    have hnone : refused = [] := List.eq_nil_iff_forall_not_mem.2 fun id hmem =>
      not_refuses hwritable id (hrefused id hmem).2
    rw [hresult]
    exact hshut hnone [] c (.nil c) _ 1 rfl (by decide)

end Allocator

end IngestCoordinator
