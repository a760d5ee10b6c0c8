-- SUMMARY: What moving the watermark does to each segment, and that moving it back does nothing.
import IngestCoordinator.Proofs.Allocator.Guarantees

/-!
# Readiness

A growing segment is ready if it has been superseded, or is large enough to be. As the
watermark moves, each ready segment whose grants have expired is sealed at the new
watermark, and every other ready segment is superseded and retired. Nothing else is
changed. Once that is done no segment is left that is ready and safe, so doing it again
at no later watermark does nothing at all.
-/

namespace IngestCoordinator

open Operation

/-! ## What becomes of a segment -/

namespace Segment

variable {segment : Segment} {policy : Policy} {watermark : Timestamp}

/-- Growing, and superseded or large enough to be. -/
def isReady (policy : Policy) (segment : Segment) : Bool :=
  segment.state == .growing &&
    (segment.superseded ||
      segment.reachedSealThreshold policy.sealProportion policy.sizeBytes)

/-- The segment as it is sealed at a time. -/
def closedAt (time : Timestamp) (segment : Segment) : Segment :=
  { segment with state := .sealed, superseded := true, sealedTime := time }

/-- The segment as it is sealed at a time, if that is safe. -/
def closing? (time : Timestamp) (segment : Segment) : Option Segment :=
  if segment.isSafeToSeal time then some (segment.closedAt time) else none

/-- The segment, superseded if it is ready. -/
def marked (policy : Policy) (segment : Segment) : Segment :=
  if segment.isReady policy then { segment with superseded := true } else segment

/-- The segment after the watermark has moved: sealed if it is ready and safe. -/
def readied (policy : Policy) (watermark : Timestamp) (segment : Segment) : Segment :=
  if segment.isReady policy then
    if segment.isSafeToSeal watermark then segment.closedAt watermark
    else { segment with superseded := true }
  else segment

theorem isReady_iff : segment.isReady policy = true ↔ segment.state = .growing ∧
    (segment.superseded = true ∨
      segment.reachedSealThreshold policy.sealProportion policy.sizeBytes = true) := by
  simp [isReady]

theorem closing?_eq_some_iff {closed : Segment} : segment.closing? watermark = some closed ↔
    segment.isSafeToSeal watermark = true ∧ closed = segment.closedAt watermark := by
  unfold closing?
  split
  · rename_i hsafe
    simp [hsafe, eq_comm]
  · rename_i hwaits
    simp [hwaits]

theorem marked_of_superseded (h : segment.superseded = true) : segment.marked policy = segment := by
  unfold marked
  split
  · rw [← h]
  · rfl

@[simp] theorem id_marked : (segment.marked policy).id = segment.id := by
  unfold marked
  split <;> rfl

@[simp] theorem key_marked : (segment.marked policy).key = segment.key := by
  unfold marked
  split <;> rfl

@[simp] theorem state_marked : (segment.marked policy).state = segment.state := by
  unfold marked
  split <;> rfl

@[simp] theorem isSafeToSeal_marked :
    (segment.marked policy).isSafeToSeal watermark = segment.isSafeToSeal watermark := by
  unfold marked
  split <;> rfl

/-- A growing segment is ready if it is superseded when it has been marked. -/
theorem superseded_marked (hgrowing : segment.state = .growing) :
    (segment.marked policy).superseded = segment.isReady policy := by
  unfold marked
  split
  · rename_i hready
    rw [hready]
  · rename_i hready
    simp only [isReady, hgrowing, beq_self_eq_true, Bool.true_and, Bool.or_eq_true, not_or,
      Bool.not_eq_true] at hready
    simp [isReady, hready]

@[simp] theorem closedAt_marked :
    (segment.marked policy).closedAt watermark = segment.closedAt watermark := by
  unfold marked
  split <;> rfl

@[simp] theorem key_readied : (segment.readied policy watermark).key = segment.key := by
  unfold readied
  split
  · split <;> rfl
  · rfl

@[simp] theorem isSafeToSeal_readied {time : Timestamp} :
    (segment.readied policy watermark).isSafeToSeal time = segment.isSafeToSeal time := by
  unfold readied
  split
  · split <;> rfl
  · rfl

theorem readied_of_not_ready (h : segment.isReady policy = false) :
    segment.readied policy watermark = segment := by
  simp [readied, h]

/-- First ready segments are marked, then those that are safe are sealed. -/
theorem readied_eq : segment.readied policy watermark =
    if segment.isReady policy ∧ segment.isSafeToSeal watermark then segment.closedAt watermark
    else segment.marked policy := by
  unfold readied marked
  cases segment.isReady policy with
  | false => simp
  | true => cases segment.isSafeToSeal watermark <;> simp

theorem growing_readied_iff : (segment.readied policy watermark).state = .growing ↔
    segment.state = .growing ∧
      (segment.isReady policy = true → segment.isSafeToSeal watermark = false) := by
  rw [readied_eq]
  cases segment.isReady policy <;> cases segment.isSafeToSeal watermark <;> simp [closedAt]

theorem superseded_readied (hgrowing : segment.state = .growing) :
    (segment.readied policy watermark).superseded = segment.isReady policy := by
  rw [readied_eq]
  split
  · rename_i hsafe
    rw [hsafe.1]
    rfl
  · exact superseded_marked hgrowing

/-- The order in which segments are listed: by key, and then by number. -/
def Precedes (segment other : Segment) : Prop :=
  compare segment.key other.key = .lt ∨
    segment.key = other.key ∧ compare segment.id other.id = .lt

end Segment

/-! ## The index entries of other keys -/

namespace KeyIndex

variable {index : KeyIndex} {key key' : SegmentKey} {id : SegmentId}

theorem get?_retire_of_ne (hne : key' ≠ key) :
    (index.retire key id).get? key' = index.get? key' := by
  simp [retire, SortedMap.get?_insert, hne]

theorem get?_forget_of_ne (hne : key' ≠ key) :
    (index.forget key id).get? key' = index.get? key' := by
  unfold forget
  split
  · rfl
  · simp [SortedMap.get?_insert, hne]

theorem get?_prune_of_ne (hne : key' ≠ key) : (index.prune key).get? key' = index.get? key' := by
  unfold prune
  split
  · rfl
  · split
    · simp [SortedMap.get?_erase, hne]
    · rfl

/-- The key has no entry without a segment. -/
def Tidy (index : KeyIndex) (key : SegmentKey) : Prop :=
  ∀ entry, index.get? key = some entry → entry.isEmpty = false

theorem tidy_prune (index : KeyIndex) (key : SegmentKey) : Tidy (index.prune key) key := by
  intro entry hget
  unfold prune at hget
  split at hget
  · rename_i hnone
    simp [hnone] at hget
  · rename_i old hold
    split at hget
    · simp [SortedMap.get?_erase] at hget
    · rename_i hsome
      cases hold.symm.trans hget
      simpa using hsome

theorem Tidy.prune_eq (h : Tidy index key) : index.prune key = index := by
  unfold prune
  split
  · rfl
  · rename_i entry hget
    simp [h entry hget]

end KeyIndex

namespace Allocator

variable {a b c : Allocator} {key : SegmentKey} {keys : List SegmentKey} {id : SegmentId}
  {segment updated : Segment} {watermark : Timestamp}

/-- Nothing has changed but segments and the index entries of some keys. -/
structure Confined (keys : List SegmentKey) (a b : Allocator) : Prop where
  policy : b.policy = a.policy
  watermark : b.watermark = a.watermark
  collections : b.store.metadata.records.collections = a.store.metadata.records.collections
  writable : a.store.Writable → b.store.Writable
  index : ∀ key ∉ keys, b.index.get? key = a.index.get? key

theorem Confined.refl (keys : List SegmentKey) (a : Allocator) : Confined keys a a :=
  ⟨rfl, rfl, rfl, id, fun _ _ => rfl⟩

theorem Confined.trans (h : Confined keys a b) (h' : Confined keys b c) : Confined keys a c where
  policy := h'.policy.trans h.policy
  watermark := h'.watermark.trans h.watermark
  collections := h'.collections.trans h.collections
  writable := h'.writable ∘ h.writable
  index key hno := (h'.index key hno).trans (h.index key hno)

theorem Confined.mono {keys' : List SegmentKey} (h : Confined keys a b) (hsub : keys ⊆ keys') :
    Confined keys' a b :=
  { h with index := fun key hno => h.index key fun hmem => hno (hsub hmem) }

/-- A segment is written, and the entry of a key is changed to match. -/
theorem Stored.confined (h : Stored updated a b) (index : KeyIndex) (metrics : SegmentMetrics)
    (hindex : ∀ key ∉ keys, index.get? key = b.index.get? key) :
    Confined keys a { b with index, metrics } where
  policy := by rw [h.rest]
  watermark := by rw [h.rest]
  collections := h.metadata.collections
  writable hwritable := by
    refine ⟨h.metadata.healthy hwritable.healthy, ?_⟩
    rw [h.rest]
    exact hwritable.update
  index key hno := by
    refine (hindex key hno).trans ?_
    rw [h.rest]

/-! ## One change of a segment -/

theorem filter_growing (hget : a.segments.get? id = some segment)
    (hgrowing : segment.state = .growing) :
    ((a.segments.get? id).filter fun segment => segment.state == .growing) = some segment := by
  simp [hget, hgrowing, Option.filter]

/-- A store that takes writes makes the change if the record allows it. -/
theorem ensures_update_exact {change : Segment → Except Error Segment} (h : a.Consistent)
    (hwritable : a.store.Writable) (hget : a.segments.get? id = some segment)
    (hok : change segment = .ok updated) (hid : updated.id = segment.id) :
    Ensures (update id change) a (fun found b => found = updated ∧ Stored updated a b)
      (fun _ _ => False) := by
  apply (ensures_update id change).imp
  · rintro found b ⟨segment', hget', hok', -, hstored⟩
    cases hget.symm.trans hget'
    cases hok.symm.trans hok'
    exact ⟨rfl, hstored⟩
  · rintro e b ⟨-, hill⟩
    have hnumber : updated.id = id := hid.trans (h.coherent.numbered hget)
    exact hill segment updated hget hok hnumber hwritable

theorem ensures_supersede_exact (h : a.Consistent) (hwritable : a.store.Writable)
    (hget : a.segments.get? id = some segment) (hkey : segment.key = key)
    (hgrowing : segment.state = .growing) :
    Ensures (supersede id) a
      (fun _ b => Consistent { b with index := b.index.retire key id } ∧
        Stored { segment with superseded := true } a b)
      (fun _ _ => False) := by
  have hok : segment.supersede = .ok { segment with superseded := true } :=
    Segment.supersede_eq_ok_iff.2 (.inl ⟨hgrowing, rfl⟩)
  apply ((ensures_supersede_retire h hget hkey hgrowing).and
    (ensures_update_exact h hwritable hget hok rfl)).imp
  · rintro _ b ⟨⟨hconsistent, -⟩, -, hstored⟩
    exact ⟨hconsistent, hstored⟩
  · rintro _ b ⟨-, hfalse⟩
    exact hfalse

theorem ensures_sealSegment_exact (h : a.Consistent) (hwritable : a.store.Writable)
    (hget : a.segments.get? id = some segment) (hkey : segment.key = key)
    (hgrowing : segment.state = .growing) (hsafe : segment.lastExpireTime ≤ watermark) :
    Ensures (sealSegment id watermark) a
      (fun found c => found = segment.closedAt watermark ∧
        Consistent { c with index := c.index.forget key id } ∧
        ∃ b metrics, Stored (segment.closedAt watermark) a b ∧ c = { b with metrics })
      (fun _ _ => False) := by
  have hok : segment.sealAt watermark = .ok (segment.closedAt watermark) :=
    Segment.sealAt_eq_ok_iff.2 (.inr ⟨hgrowing, hsafe, rfl⟩)
  have hexact : Ensures (sealSegment id watermark) a
      (fun found c => found = segment.closedAt watermark ∧
        ∃ b metrics, Stored (segment.closedAt watermark) a b ∧ c = { b with metrics })
      (fun _ _ => False) := by
    rw [sealSegment, ensures_bind]
    apply (ensures_update_exact h hwritable hget hok rfl).imp
    · rintro found b ⟨hfound, hstored⟩
      exact ⟨hfound, b, _, hstored, rfl⟩
    · exact fun _ _ hfalse => hfalse
  apply ((ensures_seal_forget watermark h hget hkey hgrowing).and hexact).imp
  · rintro found c ⟨hconsistent, hfound, hstored⟩
    exact ⟨hfound, hconsistent, hstored⟩
  · rintro _ b ⟨-, hfalse⟩
    exact hfalse

/-! ## One key -/

/-- The segments after one has been written, if no other one changes. -/
theorem Stored.segments_eq {f : Segment → Segment} (h : Stored updated a b)
    (hget : a.segments.get? updated.id = some segment) (hself : f segment = updated)
    (hothers : ∀ id other, id ≠ updated.id → a.segments.get? id = some other → f other = other)
    (id : SegmentId) : b.segments.get? id = (a.segments.get? id).map f := by
  simp only [h.segments, SortedMap.get?_insert]
  split
  · rename_i heq
    rw [heq, hget, Option.map_some, hself]
  · rename_i hne
    cases hother : a.segments.get? id with
    | none => rfl
    | some other => rw [Option.map_some, hothers id other hne hother]

/-- The segments of the key have been marked, and no other one has changed. -/
def Marks (key : SegmentKey) (a b : Allocator) : Prop :=
  ∀ id, b.segments.get? id = (a.segments.get? id).map fun segment =>
    if segment.key = key then segment.marked a.policy else segment

/-- Whatever grows under a key and is not its target has been superseded before. -/
theorem marked_of_not_target (h : a.Consistent) (hget : a.segments.get? id = some segment)
    (hno : a.index.target? segment.key ≠ some id) : segment.marked a.policy = segment := by
  cases hready : segment.isReady a.policy with
  | false => simp [Segment.marked, hready]
  | true =>
    apply Segment.marked_of_superseded
    have hgrowing := (Segment.isReady_iff.1 hready).1
    cases hflag : segment.superseded with
    | true => rfl
    | false => exact absurd ((h.agrees.target _ id).2 ⟨segment, hget, rfl, hgrowing, hflag⟩) hno

/-- The target of a key is marked, and with it all segments of the key. -/
theorem ensures_retireIfFull_exact {target : SegmentId} (h : a.Consistent)
    (hwritable : a.store.Writable) (htarget : a.index.target? key = some target) :
    Ensures (retireIfFull key target) a
      (fun _ b => b.Consistent ∧ Confined [key] a b ∧ Marks key a b) (fun _ _ => False) := by
  obtain ⟨segment, hget, hkey, hgrowing, hflag⟩ := (h.agrees.target key target).1 htarget
  have hid : segment.id = target := h.coherent.numbered hget
  have hothers : ∀ id other, id ≠ target → a.segments.get? id = some other →
      (if other.key = key then other.marked a.policy else other) = other := by
    intro id other hne hget'
    split
    · rename_i hkey'
      apply marked_of_not_target h hget'
      rw [hkey', htarget]
      exact fun heq => hne (Option.some.inj heq).symm
    · rfl
  simp only [retireIfFull, ensures_bind, ensures_segment?_iff h.truthful,
    filter_growing hget hgrowing, ensures_get,
    hflag, Bool.false_or]
  cases hfull : segment.reachedSealThreshold a.policy.sealProportion a.policy.sizeBytes with
  | true =>
    have hready : segment.isReady a.policy = true := Segment.isReady_iff.2 ⟨hgrowing, .inr hfull⟩
    simp only [if_true, Bool.not_false, ensures_bind]
    apply (ensures_supersede_exact h hwritable hget hkey hgrowing).imp
    · rintro _ b ⟨hconsistent, hstored⟩
      refine ⟨hconsistent, hstored.confined _ _ ?_, ?_⟩
      · intro key' hno
        exact KeyIndex.get?_retire_of_ne fun heq => hno (List.mem_singleton.2 heq)
      · have hself : (if segment.key = key then segment.marked a.policy else segment) =
            { segment with superseded := true } := by
          simp [hkey, Segment.marked, hready]
        exact hstored.segments_eq (hid ▸ hget) hself (hid ▸ hothers)
    · exact fun _ _ hfalse => hfalse
  | false =>
    refine ⟨h, .refl _ _, ?_⟩
    intro id
    cases hget' : a.segments.get? id with
    | none => rfl
    | some other =>
      by_cases heq : id = target
      · subst heq
        cases hget.symm.trans hget'
        simp [Segment.marked, Segment.isReady, hflag, hfull]
      · simp [hothers id other heq hget']

/-- Of some growing segments of a key those that are safe have been closed, and are listed. -/
structure ClosesEach (key : SegmentKey) (watermark : Timestamp) (ids : List SegmentId)
    (sealed : List Segment) (a b : Allocator) : Prop where
  consistent : b.Consistent
  confined : Confined [key] a b
  listed : sealed =
    ids.filterMap fun id => (a.segments.get? id).bind (Segment.closing? watermark)
  stored : ∀ id, b.segments.get? id = (a.segments.get? id).map fun segment =>
    if id ∈ ids ∧ segment.isSafeToSeal watermark then segment.closedAt watermark else segment

/-- One that is not safe stays as it is. -/
theorem ClosesEach.skip {ids : List SegmentId} {sealed : List Segment}
    (h : ClosesEach key watermark ids sealed a b) (hget : a.segments.get? id = some segment)
    (hsafe : segment.isSafeToSeal watermark = false) :
    ClosesEach key watermark (id :: ids) sealed a b where
  consistent := h.consistent
  confined := h.confined
  listed := by simp [h.listed, hget, Segment.closing?, hsafe]
  stored id' := by
    rw [h.stored]
    by_cases heq : id' = id
    · simp [heq, hget, hsafe]
    · simp [heq]

/-- One that is safe is closed, and then the others. -/
theorem ClosesEach.cons {ids : List SegmentId} {sealed : List Segment}
    (h : ClosesEach key watermark ids sealed b c) (hget : a.segments.get? id = some segment)
    (hsafe : segment.isSafeToSeal watermark = true) (hfresh : id ∉ ids)
    (hconfined : Confined [key] a b)
    (hnow : ∀ id', b.segments.get? id' =
      if id' = id then some (segment.closedAt watermark) else a.segments.get? id') :
    ClosesEach key watermark (id :: ids) (segment.closedAt watermark :: sealed) a c where
  consistent := h.consistent
  confined := hconfined.trans h.confined
  listed := by
    have hothers : ∀ id' ∈ ids, b.segments.get? id' = a.segments.get? id' := by
      intro id' hmem
      rw [hnow, if_neg (ne_of_mem_of_not_mem hmem hfresh)]
    have hrest := List.filterMap_congr fun id' hmem =>
      congrArg (Option.bind · (Segment.closing? watermark)) (hothers id' hmem)
    rw [List.filterMap_cons, hget, Option.bind_some, Segment.closing?_eq_some_iff.2 ⟨hsafe, rfl⟩,
      h.listed, hrest]
  stored id' := by
    rw [h.stored]
    by_cases heq : id' = id
    · simp [hnow, heq, hget, hsafe, hfresh]
    · simp [hnow, heq]

/-- Of the retired segments that still grow those that are safe are sealed. -/
theorem ensures_sealRetired_exact {ids : List SegmentId} (hnodup : ids.Nodup) (h : a.Consistent)
    (hwritable : a.store.Writable)
    (hgrowing : ∀ id ∈ ids, ∃ segment, a.segments.get? id = some segment ∧ segment.key = key ∧
      segment.state = .growing) :
    Ensures (sealRetired key watermark ids) a
      (fun sealed b => ClosesEach key watermark ids sealed a b) (fun _ _ => False) := by
  induction ids generalizing a with
  | nil => exact ⟨h, .refl _ _, rfl, by simp⟩
  | cons id ids ih =>
    obtain ⟨hfresh, hnodup⟩ := List.nodup_cons.1 hnodup
    obtain ⟨⟨segment, hget, hkey, hstate⟩, hgrowing⟩ := List.forall_mem_cons.1 hgrowing
    simp only [sealRetired, ensures_bind, ensures_segment?_iff h.truthful,
      filter_growing hget hstate]
    cases hsafe : segment.isSafeToSeal watermark with
    | true =>
      obtain ⟨found, hfound, rfl, hconsistent, b, metrics, hstored, hwritten⟩ :=
        (ensures_sealSegment_exact h hwritable hget hkey hstate
          (of_decide_eq_true hsafe)).attempt_done
      simp only [if_true, ensures_bind, ensures_ofStep, hfound, reindex, ensures_modify,
        ensures_pure]
      generalize ((sealSegment id watermark).attempt a).2 = c at *
      subst hwritten
      have hconfined : Confined [key] a { b with index := b.index.forget key id, metrics } :=
        hstored.confined _ _ fun key' hno =>
          KeyIndex.get?_forget_of_ne fun heq => hno (List.mem_singleton.2 heq)
      have hnow (id' : SegmentId) : b.segments.get? id' =
          if id' = id then some (segment.closedAt watermark) else a.segments.get? id' := by
        rw [hstored.segments, ← h.coherent.numbered hget]
        exact SortedMap.get?_insert ..
      apply (ih hnodup hconsistent (hconfined.writable hwritable) ?_).imp
      · exact fun sealed d hrest => hrest.cons hget hsafe hfresh hconfined hnow
      · exact fun _ _ hfalse => hfalse
      · intro id' hmem
        change ∃ segment, b.segments.get? id' = some segment ∧ _
        rw [hnow, if_neg (ne_of_mem_of_not_mem hmem hfresh)]
        exact hgrowing id' hmem
    | false =>
      simp only [Bool.false_eq_true, if_false]
      exact (ih hnodup h hwritable hgrowing).imp (fun sealed b hrest => hrest.skip hget hsafe)
        fun _ _ hfalse => hfalse

/-- The ready segments of some keys have been superseded, and the safe ones sealed and listed. -/
structure Sweeps (keys : List SegmentKey) (watermark : Timestamp) (sealed : List Segment)
    (a b : Allocator) : Prop where
  consistent : b.Consistent
  confined : Confined keys a b
  stored : ∀ id, b.segments.get? id = (a.segments.get? id).map fun segment =>
    if segment.key ∈ keys then segment.readied a.policy watermark else segment
  listed : ∀ segment, segment ∈ sealed ↔ ∃ old, a.segments.get? segment.id = some old ∧
    old.key ∈ keys ∧ old.isReady a.policy = true ∧ old.isSafeToSeal watermark = true ∧
      segment = old.closedAt watermark
  sorted : sealed.Pairwise Segment.Precedes

theorem sorted_retired (index : KeyIndex) (key : SegmentKey) :
    (index.retired key).Pairwise fun id id' => compare id id' = .lt := by
  unfold KeyIndex.retired
  cases index.get? key with
  | none => exact .nil
  | some entry => exact List.pairwise_map.2 entry.retired.ascending

/-- Once the segments of a key have been marked, its retired ones are those that are ready. -/
theorem Marks.mem_retired_iff {old : Segment} (h : Marks key a b) (hconsistent : b.Consistent)
    (hget : a.segments.get? id = some old) :
    id ∈ b.index.retired key ↔ old.key = key ∧ old.isReady a.policy = true := by
  rw [hconsistent.agrees.retired, h, hget]
  by_cases hkey : old.key = key
  · by_cases hgrowing : old.state = .growing
    · simp [hkey, hgrowing, Segment.superseded_marked]
    · simp [hkey, hgrowing, Segment.isReady]
  · simp [hkey]

/-- What a retired segment is sealed as, it is sealed as from what it was before. -/
theorem Marks.closing?_eq_some_iff {closed : Segment} (h : Marks key a b)
    (hconsistent : b.Consistent) (hretired : id ∈ b.index.retired key) :
    (b.segments.get? id).bind (Segment.closing? watermark) = some closed ↔
      ∃ old, a.segments.get? id = some old ∧ old.key = key ∧ old.isReady a.policy = true ∧
        old.isSafeToSeal watermark = true ∧ closed = old.closedAt watermark ∧ old.id = id := by
  constructor
  · intro hsome
    obtain ⟨current, hget, hclosing⟩ := Option.bind_eq_some_iff.1 hsome
    obtain ⟨hsafe, rfl⟩ := Segment.closing?_eq_some_iff.1 hclosing
    have hnumber := hconsistent.coherent.numbered hget
    rw [h] at hget
    obtain ⟨old, hold, hmark⟩ := Option.map_eq_some_iff.1 hget
    obtain ⟨hkey, hready⟩ := (h.mem_retired_iff hconsistent hold).1 hretired
    rw [if_pos hkey] at hmark
    subst hmark
    exact ⟨old, hold, hkey, hready, by simpa using hsafe, Segment.closedAt_marked,
      by simpa using hnumber⟩
  · rintro ⟨old, hget, hkey, -, hsafe, rfl, -⟩
    rw [h, hget, Option.map_some, if_pos hkey, Option.bind_some, Segment.closing?_eq_some_iff]
    exact ⟨by simpa using hsafe, Segment.closedAt_marked.symm⟩

/-- Once the segments of a key have been marked its retired ones are swept. -/
theorem ensures_sealRetired_sweeps (h : b.Consistent) (hwritable : b.store.Writable)
    (hconfined : Confined [key] a b) (hmarks : Marks key a b) :
    Ensures (sealRetired key watermark (b.index.retired key)) b
      (fun sealed c => a.Sweeps [key] watermark sealed c) (fun _ _ => False) := by
  have hsorted := sorted_retired b.index key
  have hnodup : (b.index.retired key).Nodup := by
    apply hsorted.imp
    rintro id id' hlt rfl
    simp at hlt
  apply (ensures_sealRetired_exact hnodup h hwritable ?_).imp
  · rintro sealed c ⟨hconsistent, hconfined', rfl, hstored⟩
    constructor
    case consistent => exact hconsistent
    case confined => exact hconfined.trans hconfined'
    case stored =>
      intro id
      rw [hstored, hmarks]
      cases hget : a.segments.get? id with
      | none => rfl
      | some old =>
        by_cases hkey : old.key = key
        · simp [hmarks.mem_retired_iff h hget, hkey, Segment.readied_eq]
        · simp [hmarks.mem_retired_iff h hget, hkey]
    case listed =>
      intro segment
      rw [List.mem_filterMap]
      constructor
      · rintro ⟨id, hmem, hsome⟩
        obtain ⟨old, hget, hkey, hready, hsafe, rfl, rfl⟩ :=
          (hmarks.closing?_eq_some_iff h hmem).1 hsome
        exact ⟨old, hget, List.mem_singleton.2 hkey, hready, hsafe, rfl⟩
      · rintro ⟨old, hget, hkey, hready, hsafe, rfl⟩
        have hkey' : old.key = key := List.mem_singleton.1 hkey
        have hmem : old.id ∈ b.index.retired key :=
          (hmarks.mem_retired_iff h hget).2 ⟨hkey', hready⟩
        exact ⟨old.id, hmem, (hmarks.closing?_eq_some_iff h hmem).2
          ⟨old, hget, hkey', hready, hsafe, rfl, rfl⟩⟩
    case sorted =>
      apply List.pairwise_filterMap.2
      apply hsorted.imp_of_mem
      intro id id' hmem hmem' hlt x hx y hy
      obtain ⟨old, -, hkey, -, -, rfl, rfl⟩ := (hmarks.closing?_eq_some_iff h hmem).1 hx
      obtain ⟨old', -, hkey', -, -, rfl, rfl⟩ := (hmarks.closing?_eq_some_iff h hmem').1 hy
      exact .inr ⟨hkey.trans hkey'.symm, hlt⟩
  · exact fun _ _ hfalse => hfalse
  · intro id hmem
    obtain ⟨segment, hget, hkey, hgrowing, -⟩ := (h.agrees.retired key id).1 hmem
    exact ⟨segment, hget, hkey, hgrowing⟩

theorem ensures_sealReadyOf_sweeps (h : a.Consistent) (hwritable : a.store.Writable) :
    Ensures (sealReadyOf key watermark) a (fun sealed b => a.Sweeps [key] watermark sealed b)
      (fun _ _ => False) := by
  simp only [sealReadyOf, ensures_bind, ensures_get]
  cases htarget : a.index.target? key with
  | none =>
    apply ensures_sealRetired_sweeps h hwritable (.refl _ _)
    intro id
    cases hget : a.segments.get? id with
    | none => rfl
    | some old =>
      have hmarked : (if old.key = key then old.marked a.policy else old) = old := by
        split
        · rename_i hkey
          exact marked_of_not_target h hget (by simp [hkey, htarget])
        · rfl
      rw [Option.map_some, hmarked]
  | some target =>
    simp only [ensures_bind]
    apply (ensures_retireIfFull_exact h hwritable htarget).imp
    · rintro _ b ⟨hconsistent, hconfined, hmarked⟩
      exact ensures_sealRetired_sweeps hconsistent (hconfined.writable hwritable) hconfined hmarked
    · exact fun _ _ hfalse => hfalse

/-! ## All keys -/

theorem Sweeps.prune {sealed : List Segment} (h : Sweeps [key] watermark sealed a b) :
    Sweeps [key] watermark sealed a { b with index := b.index.prune key } where
  consistent := h.consistent.prune key
  confined := h.confined.trans
    ⟨rfl, rfl, rfl, id, fun _ hno =>
      KeyIndex.get?_prune_of_ne fun heq => hno (List.mem_singleton.2 heq)⟩
  stored := h.stored
  listed := h.listed
  sorted := h.sorted

/-- Segments of another key are as they were. -/
theorem Sweeps.get?_eq_some_iff {sealed : List Segment} {old : Segment}
    (h : Sweeps [key] watermark sealed a b) (hne : old.key ≠ key) :
    b.segments.get? id = some old ↔ a.segments.get? id = some old := by
  rw [h.stored]
  constructor
  · intro hsome
    obtain ⟨before, hget, hafter⟩ := Option.map_eq_some_iff.1 hsome
    split at hafter
    · rename_i hkey
      subst hafter
      exact absurd (by simpa using hkey) hne
    · rw [hget, hafter]
  · intro hget
    simp [hget, hne]

/-- One key after the other, in their order. -/
theorem Sweeps.cons {sealed sealed' : List Segment} (h : Sweeps [key] watermark sealed a b)
    (h' : Sweeps keys watermark sealed' b c) (hfirst : ∀ key' ∈ keys, compare key key' = .lt) :
    Sweeps (key :: keys) watermark (sealed ++ sealed') a c := by
  have hfresh : key ∉ keys := by
    intro hmem
    have hlt := hfirst key hmem
    simp at hlt
  have hlater {id : SegmentId} {old : Segment} (hkey : old.key ∈ keys) :
      b.segments.get? id = some old ↔ a.segments.get? id = some old :=
    h.get?_eq_some_iff (ne_of_mem_of_not_mem hkey hfresh)
  constructor
  case consistent => exact h'.consistent
  case confined =>
    apply (h.confined.mono ?_).trans (h'.confined.mono ?_)
    · simp
    · simp
  case stored =>
    intro id
    rw [h'.stored, h.stored, h.confined.policy]
    cases a.segments.get? id with
    | none => rfl
    | some old =>
      by_cases hkey : old.key = key
      · simp [hkey, hfresh]
      · simp [hkey]
  case listed =>
    intro segment
    rw [List.mem_append, h.listed, h'.listed, h.confined.policy]
    constructor
    · rintro (⟨old, hget, hkey, hrest⟩ | ⟨old, hget, hkey, hrest⟩)
      · exact ⟨old, hget, by simp [List.mem_singleton.1 hkey], hrest⟩
      · exact ⟨old, (hlater hkey).1 hget, List.mem_cons_of_mem _ hkey, hrest⟩
    · rintro ⟨old, hget, hkey, hrest⟩
      rcases List.mem_cons.1 hkey with hkey | hkey
      · exact .inl ⟨old, hget, List.mem_singleton.2 hkey, hrest⟩
      · exact .inr ⟨old, (hlater hkey).2 hget, hkey, hrest⟩
  case sorted =>
    apply List.pairwise_append.2
    refine ⟨h.sorted, h'.sorted, ?_⟩
    intro x hx y hy
    obtain ⟨old, -, hkey, -, -, rfl⟩ := (h.listed x).1 hx
    obtain ⟨old', -, hkey', -, -, rfl⟩ := (h'.listed y).1 hy
    left
    obtain rfl := List.mem_singleton.1 hkey
    exact hfirst _ hkey'

theorem sweeps_nil (h : a.Consistent) : Sweeps [] watermark [] a a where
  consistent := h
  confined := .refl _ _
  stored id := by simp
  listed segment := by simp
  sorted := .nil

theorem sweeps_sealReadyKeys (hascending : keys.Pairwise fun key key' => compare key key' = .lt)
    (h : a.Consistent) (hwritable : a.store.Writable) :
    a.Sweeps keys watermark (sealReadyKeys watermark keys a).1 (sealReadyKeys watermark keys a).2 ∧
      ∀ key ∈ keys, (sealReadyKeys watermark keys a).2.index.Tidy key := by
  induction keys generalizing a with
  | nil => exact ⟨sweeps_nil h, List.forall_mem_nil _⟩
  | cons key keys ih =>
    obtain ⟨hfirst, hascending⟩ := List.pairwise_cons.1 hascending
    have hexact : Ensures (sealReadyOf key watermark) a
        (fun sealed b => a.Sweeps [key] watermark sealed b) (fun _ _ => False) :=
      ensures_sealReadyOf_sweeps h hwritable
    obtain ⟨sealed, hsealed, hsweeps⟩ := hexact.attempt_done
    have hpruned := hsweeps.prune
    obtain ⟨hrest, htidy⟩ := ih hascending hpruned.consistent (hpruned.confined.writable hwritable)
    simp only [sealReadyKeys, step_bind, step_modify, hsealed, step_pure]
    refine ⟨hpruned.cons hrest hfirst, List.forall_mem_cons.2 ⟨?_, htidy⟩⟩
    have hfresh : key ∉ keys := by
      intro hmem
      have hlt := hfirst key hmem
      simp at hlt
    rw [KeyIndex.Tidy, hrest.confined.index key hfresh]
    exact KeyIndex.tidy_prune _ key

/-- The keys of ready segments are in the index. -/
theorem mem_keys_of_isReady (h : a.Consistent) (hget : a.segments.get? id = some segment)
    (hready : segment.isReady a.policy = true) : segment.key ∈ a.index.keys := by
  have hgrowing := (Segment.isReady_iff.1 hready).1
  rw [SortedMap.mem_keys_iff]
  rcases (h.agrees.tracked segment.key id).2 ⟨segment, hget, rfl, hgrowing⟩ with htarget | hretired
  · obtain ⟨entry, hentry, -⟩ := Option.bind_eq_some_iff.1 htarget
    exact ⟨entry, hentry⟩
  · obtain ⟨entry, hentry, -⟩ := (KeyIndex.mem_retired_iff ..).1 hretired
    exact ⟨entry, hentry⟩

/-! ## Once more -/

/-- Every ready segment has been superseded, and none of them is safe. -/
def Swept (a : Allocator) : Prop :=
  ∀ id segment, a.segments.get? id = some segment → segment.isReady a.policy = true →
    segment.superseded = true ∧ segment.isSafeToSeal a.watermark = false

theorem sealRetired_again {ids : List SegmentId} (h : a.Consistent) (hswept : a.Swept)
    (hretired : ∀ id ∈ ids, id ∈ a.index.retired key) :
    Ensures (sealRetired key a.watermark ids) a (fun sealed b => sealed = [] ∧ b = a)
      (fun _ _ => False) := by
  induction ids with
  | nil => exact ⟨rfl, rfl⟩
  | cons id ids ih =>
    obtain ⟨hmem, hrest⟩ := List.forall_mem_cons.1 hretired
    obtain ⟨segment, hget, -, hgrowing, hflag⟩ := (h.agrees.retired key id).1 hmem
    have hready : segment.isReady a.policy = true := Segment.isReady_iff.2 ⟨hgrowing, .inl hflag⟩
    have hwaits := (hswept id segment hget hready).2
    simp only [sealRetired, ensures_bind, ensures_segment?_iff h.truthful,
      filter_growing hget hgrowing, hwaits]
    exact ih hrest

theorem sealReadyOf_again (h : a.Consistent) (hswept : a.Swept) :
    sealReadyOf key a.watermark a = .ok [] a := by
  apply eq_ok_of_ensures
  have hretired : Ensures (sealRetired key a.watermark (a.index.retired key)) a
      (fun sealed b => sealed = [] ∧ b = a) (fun _ _ => False) :=
    sealRetired_again h hswept fun _ hmem => hmem
  simp only [sealReadyOf, ensures_bind, ensures_get]
  cases htarget : a.index.target? key with
  | none => exact hretired
  | some target =>
    obtain ⟨segment, hget, -, hgrowing, hflag⟩ := (h.agrees.target key target).1 htarget
    have hsmall :
        segment.reachedSealThreshold a.policy.sealProportion a.policy.sizeBytes = false := by
      cases hfull : segment.reachedSealThreshold a.policy.sealProportion a.policy.sizeBytes with
      | false => rfl
      | true =>
        have hready : segment.isReady a.policy = true :=
          Segment.isReady_iff.2 ⟨hgrowing, .inr hfull⟩
        have hsuperseded := (hswept target segment hget hready).1
        rw [hflag] at hsuperseded
        cases hsuperseded
    simp only [retireIfFull, ensures_bind, ensures_segment?_iff h.truthful,
      filter_growing hget hgrowing, ensures_get, hflag, hsmall, Bool.or_false]
    exact hretired

theorem sealReadyKeys_again (h : a.Consistent) (hswept : a.Swept)
    (htidy : ∀ key ∈ keys, a.index.Tidy key) :
    sealReadyKeys a.watermark keys a = ([], a) := by
  induction keys with
  | nil => rfl
  | cons key keys ih =>
    obtain ⟨hkey, hkeys⟩ := List.forall_mem_cons.1 htidy
    simp only [sealReadyKeys, step_bind, step_modify, Operation.attempt, sealReadyOf_again h hswept,
      hkey.prune_eq, ih hkeys, step_pure, List.append_nil]

theorem sealReady_again {watermark : Timestamp} (h : a.Consistent) (hswept : a.Swept)
    (htidy : ∀ key ∈ a.index.keys, a.index.Tidy key) (hle : watermark ≤ a.watermark) :
    sealReady watermark a = ([], a) := by
  have hmax : max a.watermark watermark = a.watermark := Word.max_eq_left hle
  simp only [sealReady, step_bind, step_modify, step_get, hmax]
  exact sealReadyKeys_again h hswept htidy

/-! ## Moving the watermark -/

section

variable {sealed : List Segment}

/-- Every segment has become what it becomes as the watermark moves. -/
def Readies (watermark : Timestamp) (a b : Allocator) : Prop :=
  ∀ id, b.segments.get? id = (a.segments.get? id).map (Segment.readied a.policy watermark)

/-- Ready segments are under keys of the index, so to sweep these is to sweep all. -/
theorem Sweeps.readies (h : Sweeps a.index.keys watermark sealed a b)
    (hconsistent : a.Consistent) : Readies watermark a b := by
  intro id
  rw [h.stored]
  cases hget : a.segments.get? id with
  | none => rfl
  | some old =>
    cases hready : old.isReady a.policy with
    | true => simp [mem_keys_of_isReady hconsistent hget hready]
    | false => simp [Segment.readied_of_not_ready hready]

/-- Where a segment grows afterwards it has grown before, and is superseded if it is ready. -/
theorem Readies.growing_iff (h : Readies watermark a b) {flag : Bool} :
    (∃ segment, b.segments.get? id = some segment ∧ segment.key = key ∧
      segment.state = .growing ∧ segment.superseded = flag) ↔
    ∃ old, a.segments.get? id = some old ∧ old.key = key ∧ old.state = .growing ∧
      old.isReady a.policy = flag ∧
      (old.isReady a.policy = true → old.isSafeToSeal watermark = false) := by
  rw [h]
  constructor
  · rintro ⟨segment, hget, hkey, hgrowing, hflag⟩
    obtain ⟨old, hold, rfl⟩ := Option.map_eq_some_iff.1 hget
    obtain ⟨hgrowing', hwaits⟩ := Segment.growing_readied_iff.1 hgrowing
    rw [Segment.superseded_readied hgrowing'] at hflag
    exact ⟨old, hold, by simpa using hkey, hgrowing', hflag, hwaits⟩
  · rintro ⟨old, hold, hkey, hgrowing, hflag, hwaits⟩
    refine ⟨old.readied a.policy watermark, by rw [hold, Option.map_some], by simpa using hkey,
      Segment.growing_readied_iff.2 ⟨hgrowing, hwaits⟩, ?_⟩
    rw [Segment.superseded_readied hgrowing, hflag]

/-- Of the targets those are left that are not large enough to be superseded. -/
theorem Readies.target?_iff (h : Readies watermark a b) (hbefore : a.Consistent)
    (hafter : b.Consistent) :
    b.index.target? key = some id ↔ a.index.target? key = some id ∧
      ∀ segment, a.segments.get? id = some segment →
        segment.reachedSealThreshold a.policy.sealProportion a.policy.sizeBytes = false := by
  rw [hbefore.agrees.target, hafter.agrees.target, h.growing_iff]
  constructor
  · rintro ⟨old, hget, hkey, hgrowing, hready, -⟩
    simp only [Segment.isReady, hgrowing, beq_self_eq_true, Bool.true_and, Bool.or_eq_false_iff]
      at hready
    refine ⟨⟨old, hget, hkey, hgrowing, hready.1⟩, ?_⟩
    intro segment hget'
    cases hget.symm.trans hget'
    exact hready.2
  · rintro ⟨⟨old, hget, hkey, hgrowing, hflag⟩, hsmall⟩
    have hready : old.isReady a.policy = false := by
      simp [Segment.isReady, hflag, hsmall old hget]
    exact ⟨old, hget, hkey, hgrowing, hready, by simp [hready]⟩

/-- The retired segments are those that are ready and not safe. -/
theorem Readies.mem_retired_iff (h : Readies watermark a b) (hafter : b.Consistent) :
    id ∈ b.index.retired key ↔ ∃ segment, a.segments.get? id = some segment ∧
      segment.key = key ∧ segment.isReady a.policy = true ∧
        watermark < segment.lastExpireTime := by
  rw [hafter.agrees.retired, h.growing_iff]
  apply exists_congr
  intro old
  have hwaits : old.isSafeToSeal watermark = false ↔ watermark < old.lastExpireTime := by
    simp [Segment.isSafeToSeal]
  constructor
  · rintro ⟨hget, hkey, -, hready, hsafe⟩
    exact ⟨hget, hkey, hready, hwaits.1 (hsafe hready)⟩
  · rintro ⟨hget, hkey, hready, hlate⟩
    exact ⟨hget, hkey, (Segment.isReady_iff.1 hready).1, hready, fun _ => hwaits.2 hlate⟩

theorem Readies.swept (h : Readies watermark a b) (hpolicy : b.policy = a.policy)
    (hmark : b.watermark = watermark) : b.Swept := by
  intro id segment hget hready
  rw [h] at hget
  obtain ⟨old, hold, rfl⟩ := Option.map_eq_some_iff.1 hget
  rw [hpolicy] at hready
  rw [hmark]
  obtain ⟨hgrowing, hwaits⟩ := Segment.growing_readied_iff.1 (Segment.isReady_iff.1 hready).1
  cases hbefore : old.isReady a.policy with
  | true =>
    rw [Segment.superseded_readied hgrowing, Segment.isSafeToSeal_readied]
    exact ⟨hbefore, hwaits hbefore⟩
  | false =>
    rw [Segment.readied_of_not_ready hbefore, hbefore] at hready
    cases hready

theorem Sweeps.mem_iff (h : Sweeps a.index.keys watermark sealed a b)
    (hconsistent : a.Consistent) (segment : Segment) :
    segment ∈ sealed ↔ ∃ old, a.segments.get? segment.id = some old ∧
      old.isReady a.policy = true ∧ old.lastExpireTime ≤ watermark ∧
        segment = old.closedAt watermark := by
  rw [h.listed]
  apply exists_congr
  intro old
  constructor
  · rintro ⟨hget, -, hready, hsafe, hclosed⟩
    exact ⟨hget, hready, of_decide_eq_true hsafe, hclosed⟩
  · rintro ⟨hget, hready, hsafe, hclosed⟩
    have hkey := mem_keys_of_isReady hconsistent hget hready
    exact ⟨hget, hkey, hready, decide_eq_true hsafe, hclosed⟩

/-- Keys that were not in the index are not in it now. -/
theorem Confined.tidy (h : Confined keys a b) (hkeys : a.index.keys = keys)
    (htidy : ∀ key ∈ keys, b.index.Tidy key) : ∀ key ∈ b.index.keys, b.index.Tidy key := by
  intro key hmem
  apply htidy
  by_cases hkey : key ∈ keys
  · exact hkey
  · obtain ⟨entry, hentry⟩ := SortedMap.mem_keys_iff.1 hmem
    rw [h.index key hkey] at hentry
    rw [← hkeys]
    exact SortedMap.mem_keys_iff.2 ⟨entry, hentry⟩

/--
As the watermark moves, exactly the ready segments that are safe are sealed at it and
listed, by key and number; the other ready ones are superseded and retired, and all
else stays. Nothing is left to do then until the watermark moves further.
-/
theorem sealReady_exact {a₀ : Allocator} {log : List Returned} (hinitial : a₀.Initial)
    (hrun : Run asStored a₀ log a) (hwritable : a.store.Writable) (watermark : Timestamp) :
    ∃ sealed b mark, sealReady watermark a = (sealed, b) ∧ mark = max a.watermark watermark ∧
      b.watermark = mark ∧
      (∀ id, b.segments.get? id = (a.segments.get? id).map (Segment.readied a.policy mark)) ∧
      b.store.metadata.records.collections = a.store.metadata.records.collections ∧
      (∀ key id, b.index.target? key = some id ↔ a.index.target? key = some id ∧
        ∀ segment, a.segments.get? id = some segment →
          segment.reachedSealThreshold a.policy.sealProportion a.policy.sizeBytes = false) ∧
      (∀ key id, id ∈ b.index.retired key ↔ ∃ segment, a.segments.get? id = some segment ∧
        segment.key = key ∧ segment.isReady a.policy = true ∧ mark < segment.lastExpireTime) ∧
      (∀ segment, segment ∈ sealed ↔ ∃ old, a.segments.get? segment.id = some old ∧
        old.isReady a.policy = true ∧ old.lastExpireTime ≤ mark ∧ segment = old.closedAt mark) ∧
      sealed.Pairwise Segment.Precedes ∧
      ∀ later ≤ mark, sealReady later b = ([], b) := by
  have hconsistent : a.Consistent := hrun.consistent hinitial.consistent
  have hraised : Consistent { a with watermark := max a.watermark watermark } :=
    hconsistent.of_eq rfl rfl
  have hascending : a.index.keys.Pairwise fun key key' => compare key key' = .lt :=
    List.pairwise_map.2 a.index.ascending
  obtain ⟨sealed, b, hresult, hsweeps, htidy⟩ : ∃ sealed b, sealReady watermark a = (sealed, b) ∧
      Sweeps a.index.keys (max a.watermark watermark) sealed
        { a with watermark := max a.watermark watermark } b ∧
      ∀ key ∈ a.index.keys, b.index.Tidy key :=
    ⟨_, _, rfl, sweeps_sealReadyKeys hascending hraised hwritable⟩
  have hreadies := hsweeps.readies hraised
  have hmem := hsweeps.mem_iff hraised
  have htidy' := hsweeps.confined.tidy rfl htidy
  refine ⟨sealed, b, _, hresult, rfl, hsweeps.confined.watermark, hreadies,
    hsweeps.confined.collections, ?_, ?_, hmem, hsweeps.sorted, ?_⟩
  · exact fun key id => hreadies.target?_iff hraised hsweeps.consistent
  · exact fun key id => hreadies.mem_retired_iff hsweeps.consistent
  · intro later hle
    have hswept : b.Swept := hreadies.swept hsweeps.confined.policy hsweeps.confined.watermark
    apply sealReady_again hsweeps.consistent hswept htidy'
    rw [hsweeps.confined.watermark]
    exact hle

/-- Segments are opened as they are stored in the run of two grants. -/
theorem asStored_granting : Admitted asStored granting onMemory := by
  refine ⟨(fun _ h => nomatch h), (fun _ h => nomatch h), ?_, (fun _ h => nomatch h),
    (fun _ h => nomatch h), trivial⟩
  intro segment hrequest stored hget
  cases hrequest
  cases hget
  rfl

/-- The full segment waits for its last grant at 8, and is sealed at 9. -/
theorem sealReady_exact_full :
    ∃ a, a = (performAll granting onMemory).2 ∧
      (sealReady 8 a).1 = [] ∧ (sealReady 8 a).2.index.retired onlyKey = [⟨7⟩] ∧
      sealReady 8 (sealReady 8 a).2 = ([], (sealReady 8 a).2) ∧
      (sealReady 9 a).1.map (fun segment => (segment.id, segment.sealedTime)) = [(⟨7⟩, 9)] ∧
      sealReady 8 (sealReady 9 a).2 = ([], (sealReady 9 a).2) := by
  have hrun := Run.performAll asStored_granting
  have hwritable : (performAll granting onMemory).2.store.Writable :=
    ⟨⟨by decide +kernel, by decide +kernel, by decide +kernel⟩, by decide +kernel⟩
  have hagain (mark : Timestamp) (hmark : 8 ≤ mark) : sealReady 8
      (sealReady mark (performAll granting onMemory).2).2 =
        ([], (sealReady mark (performAll granting onMemory).2).2) := by
    obtain ⟨sealed, b, reached, hresult, hreached, -, -, -, -, -, -, -, hlater⟩ :=
      sealReady_exact initial_onMemory hrun hwritable mark
    rw [hresult]
    apply hlater 8
    rw [hreached]
    exact UInt64.le_trans hmark (Word.le_max_right _ mark)
  exact ⟨_, rfl, by decide +kernel, by decide +kernel, hagain 8 (by decide), by decide +kernel,
    hagain 9 (by decide)⟩

end

end Allocator

end IngestCoordinator
