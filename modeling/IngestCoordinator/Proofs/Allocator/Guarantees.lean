-- SUMMARY: What an allocator guarantees over every run: tilings, safe sealing, a faithful index.
import IngestCoordinator.Proofs.Allocator.Runs

/-!
# Guarantees

Three things hold of every run over a store that held no segment, whatever writes
fail and however often the process is restarted. The grants on a segment tile it.
A segment is sealed only once its grants have expired, and takes none afterwards.
The index names just the growing segments, and one target for each key at most.
-/

namespace IngestCoordinator.Allocator

variable {a b : Allocator} {log : List Returned} {admits : Allocator → Request → Prop}

/-! ## Runs without failures -/

/-- Does what is asked, one after another. -/
def performAll : List Request → Allocator → List Returned × Allocator
  | [], a => ([], a)
  | request :: requests, a =>
    let (log, b) := perform request a
    let (log', c) := performAll requests b
    (log ++ log', c)

/-- Each of the requests is admitted when its turn comes. -/
def Admitted (admits : Allocator → Request → Prop) : List Request → Allocator → Prop
  | [], _ => True
  | request :: requests, a => admits a request ∧ Admitted admits requests (perform request a).2

instance (a : Allocator) (request : Request) : Decidable (asStored a request) :=
  match request with
  | .openSegment segment =>
    decidable_of_iff (∀ stored ∈ a.segments.get? segment.id, stored.key = segment.key)
      ⟨fun h _ heq => Request.openSegment.inj heq ▸ h, fun h => h segment rfl⟩
  | .addCollection _ | .addPartition .. | .loadCatalog _ | .addSegment .. | .alloc .. | .sealAll _
  | .sealReady _ | .recover | .report _ | .completeFlush _ | .setCutoff _ =>
    .isTrue fun _ heq => nomatch heq

instance decidableAdmitted [∀ a request, Decidable (admits a request)] :
    (requests : List Request) → (a : Allocator) → Decidable (Admitted admits requests a)
  | [], _ => .isTrue trivial
  | request :: requests, a =>
    have := decidableAdmitted requests (perform request a).2
    inferInstanceAs (Decidable (admits a request ∧ Admitted admits requests (perform request a).2))

theorem Run.performAll {requests : List Request} (h : Admitted admits requests a) :
    Run admits a (performAll requests a).1 (performAll requests a).2 := by
  induction requests generalizing a with
  | nil => exact .nil a
  | cons request requests ih => exact (Course.single (.request request h.1)).append (ih h.2)

theorem admitted_anything (requests : List Request) (a : Allocator) :
    Admitted anything requests a := by
  induction requests generalizing a with
  | nil => trivial
  | cons request requests ih => exact ⟨trivial, ih _⟩

/-- A new allocator over an empty store in memory. -/
def onMemory : Allocator where
  store := { metadata := { backend := {}, root := ⟨"root"⟩, records := {} } }
  ids := { foretold := [8, 9] }
  policy := { sizeBytes := 1024, sealProportion := 1, grantLifetimeMs := 0 }

theorem initial_onMemory : Initial onMemory where
  opened := ⟨{}, rfl⟩
  noSegments := rfl
  truthful := ⟨rfl, rfl, rfl, rfl⟩
  index := rfl
  watermark := rfl
  cutoff := rfl

/-- The key of the only segment in the runs below. -/
def onlyKey : SegmentKey :=
  ⟨⟨1⟩, ⟨2⟩, "channel"⟩

/-- A segment of ten rows is opened, and rows of it are granted twice, the second time in part. -/
def granting : List Request :=
  [.addCollection ⟨⟨1⟩, ⟨"schema", [⟨"field", .int64, 0⟩]⟩, [⟨2⟩]⟩,
    .addSegment ⟨7⟩ onlyKey "group" none 10 0, .openSegment (.fresh ⟨7⟩ onlyKey "group" none 10 0),
    .alloc onlyKey 4, .alloc onlyKey 9]

/-- The same with the watermark at 100, and then the segment is sealed. -/
def sealing : List Request :=
  .sealReady 100 :: granting ++ [.sealAll ⟨1⟩]

/-- What is returned in both. -/
def granted : List Returned :=
  [⟨4, ⟨⟨7⟩, 0, 4, 8⟩⟩, ⟨9, ⟨⟨7⟩, 4, 6, 9⟩⟩]

/-! ## Grants -/

/--
The grants on a segment follow one another from its first row to its next offset,
which is stored in memory and in the backend alike, never falls and never exceeds
the capacity. Each is of a row or more, and of no more than were asked for.
-/
theorem grants_tile_segments (hinitial : a.Initial) (hrun : Run anything a log b) :
    (∀ id segment, b.segments.get? id = some segment →
      Tiles 0 (grantsOn id (log.map Returned.grant)) segment.nextOffset.toNat ∧
      segment.nextOffset ≤ segment.capacity ∧
      b.store.metadata.backend.entries.get? (b.store.metadata.root.segment id) =
        some (.bytes segment.toJson.write)) ∧
    (∀ returned ∈ log, 1 ≤ returned.grant.count.toNat ∧ returned.grant.count ≤ returned.wanted ∧
      ∃ segment, b.segments.get? returned.grant.segment = some segment) ∧
    ((log.map Returned.grant).Pairwise fun grant later => grant.segment = later.segment →
      grant.offset.toNat + grant.count.toNat ≤ later.offset.toNat) ∧
    ∀ log' c, Run anything b log' c → ∀ id segment, b.segments.get? id = some segment →
      ∃ segment', c.segments.get? id = some segment' ∧
        segment.nextOffset ≤ segment'.nextOffset := by
  obtain ⟨hextends, hfair⟩ := hrun.extends hinitial.sound
  have haccounts := hrun.accounts hinitial
  refine ⟨fun id segment hget => ?_, fun returned hmem => ?_, haccounts.ordered, ?_⟩
  · obtain ⟨_, haccounted⟩ := haccounts.stored hget
    exact ⟨haccounted.tiles, haccounted.sound.bounded, hextends.sound.coherent.stored hget⟩
  · obtain ⟨hsome, hmost⟩ := hfair returned hmem
    exact ⟨hsome, hmost, haccounts.granted _ (List.mem_map_of_mem hmem)⟩
  · intro log' c hlater id segment hget
    obtain ⟨segment', hget', hadvances, _⟩ := hrun.advances hinitial hlater hget
    exact ⟨segment', hget', hadvances.nextOffset⟩

/-- Rows 0 to 3 and 4 to 9 of a segment with ten rows. -/
theorem grants_tile_ten_rows :
    ∃ segment, (performAll granting onMemory).2.segments.get? ⟨7⟩ = some segment ∧
      segment.nextOffset = 10 ∧
      Tiles 0 (grantsOn ⟨7⟩ (granted.map Returned.grant)) segment.nextOffset.toNat := by
  have hlog : (performAll granting onMemory).1 = granted := by decide +kernel
  have hoffset : ((performAll granting onMemory).2.segments.get? ⟨7⟩).map Segment.nextOffset =
      some 10 := by decide +kernel
  obtain ⟨segment, hget, hoffset⟩ := Option.map_eq_some_iff.1 hoffset
  have htiles := (grants_tile_segments initial_onMemory
    (Run.performAll (admitted_anything granting onMemory))).1 ⟨7⟩ segment hget
  exact ⟨segment, hget, hoffset, hlog ▸ htiles.1⟩

/-! ## Sealing -/

/--
A sealed segment was sealed once all grants on it had expired, at a time that the
watermark had reached; nothing is granted on it any more.
-/
theorem sealed_only_after_grants_expire (hinitial : a.Initial) (hrun : Run anything a log b)
    {id : SegmentId} {segment : Segment} (hget : b.segments.get? id = some segment)
    (hclosed : segment.state = .sealed ∨ segment.state = .flushed) :
    (∀ returned ∈ log, returned.grant.segment = id →
      returned.grant.expireTime ≤ segment.lastExpireTime) ∧
    segment.lastExpireTime ≤ segment.sealedTime ∧ segment.sealedTime ≤ b.watermark ∧
    ∀ log' c, Run anything b log' c → ∀ returned ∈ log', returned.grant.segment ≠ id := by
  have himmutable : segment.state.isImmutable = true := by
    rcases hclosed with h | h <;> rw [h] <;> rfl
  obtain ⟨_, haccounted⟩ := (hrun.accounts hinitial).stored hget
  refine ⟨fun returned hmem hid => ?_, haccounted.sound.expired himmutable, ?_, ?_⟩
  · exact haccounted.expires _ (mem_grantsOn.2 ⟨List.mem_map_of_mem hmem, hid⟩)
  · exact hrun.sealedBy hinitial.sound (hinitial.sealedBy _) id segment hget himmutable
  · intro log' c hlater returned hmem hid
    obtain ⟨_, _, _, hnone⟩ := hrun.advances hinitial hlater hget
    have hon := mem_grantsOn.2 ⟨List.mem_map_of_mem (f := Returned.grant) hmem, hid⟩
    rw [hnone himmutable] at hon
    cases hon

/-- A segment with two grants is sealed at 100, when both have expired. -/
theorem sealed_after_two_grants :
    ∃ segment, (performAll sealing onMemory).2.segments.get? ⟨7⟩ = some segment ∧
      segment.state = .sealed ∧
      (∀ returned ∈ granted, returned.grant.expireTime ≤ segment.lastExpireTime) ∧
      segment.lastExpireTime ≤ segment.sealedTime ∧ segment.sealedTime ≤ 100 := by
  have hlog : (performAll sealing onMemory).1 = granted := by decide +kernel
  have hmark : (performAll sealing onMemory).2.watermark = 100 := by decide +kernel
  have hstate : ((performAll sealing onMemory).2.segments.get? ⟨7⟩).map Segment.state =
      some .sealed := by decide +kernel
  obtain ⟨segment, hget, hsealed⟩ := Option.map_eq_some_iff.1 hstate
  obtain ⟨hexpire, hsealing, hwatermark, _⟩ := sealed_only_after_grants_expire initial_onMemory
    (Run.performAll (admitted_anything sealing onMemory)) hget (.inl hsealed)
  rw [hlog] at hexpire
  rw [hmark] at hwatermark
  have hown : ∀ returned ∈ granted, returned.grant.segment = ⟨7⟩ := by decide
  exact ⟨segment, hget, hsealed, fun returned hmem => hexpire returned hmem (hown returned hmem),
    hsealing, hwatermark⟩

/-! ## The index -/

/--
The target of a key is the one growing segment of the key that is not superseded,
and its retired segments are those that are. No other segment is in the index.
-/
theorem index_matches_records (hinitial : a.Initial) (hrun : Run asStored a log b) :
    (∀ key id, b.index.target? key = some id ↔ ∃ segment, b.segments.get? id = some segment ∧
      segment.key = key ∧ segment.state = .growing ∧ segment.superseded = false) ∧
    (∀ key id, id ∈ b.index.retired key ↔ ∃ segment, b.segments.get? id = some segment ∧
      segment.key = key ∧ segment.state = .growing ∧ segment.superseded = true) ∧
    (∀ id segment id' segment', b.segments.get? id = some segment →
      b.segments.get? id' = some segment' → segment.key = segment'.key →
      segment.state = .growing → segment.superseded = false →
      segment'.state = .growing → segment'.superseded = false → id = id') ∧
    ∀ id segment, b.segments.get? id = some segment →
      ((∃ key, b.index.target? key = some id ∨ id ∈ b.index.retired key) ↔
        segment.state = .growing) := by
  have hagrees := (hrun.consistent hinitial.consistent).agrees
  refine ⟨hagrees.target, hagrees.retired, ?_, fun id segment hget => ⟨?_, fun hgrowing => ?_⟩⟩
  · intro id segment id' segment' hget hget' hkey hgrowing hopen hgrowing' hopen'
    exact hagrees.target_unique hget hget' hkey hgrowing hopen hgrowing' hopen'
  · rintro ⟨key, htracked⟩
    obtain ⟨segment', hget', _, hgrowing⟩ := (hagrees.tracked key id).1 htracked
    cases hget.symm.trans hget'
    exact hgrowing
  · exact ⟨segment.key, (hagrees.tracked _ _).2 ⟨segment, hget, rfl, hgrowing⟩⟩

/-- The opened segment is the target of its key. -/
theorem index_names_opened_segment :
    Admitted asStored granting onMemory ∧
      ∃ segment, (performAll granting onMemory).2.segments.get? ⟨7⟩ = some segment ∧
        segment.key = onlyKey ∧ segment.state = .growing ∧ segment.superseded = false := by
  have hadmitted : Admitted asStored granting onMemory := by
    refine ⟨(fun _ h => nomatch h), (fun _ h => nomatch h), fun _ heq stored hget => ?_,
      (fun _ h => nomatch h), (fun _ h => nomatch h), trivial⟩
    cases heq
    cases hget
    rfl
  have htarget : (performAll granting onMemory).2.index.target? onlyKey = some ⟨7⟩ := by
    decide +kernel
  exact ⟨hadmitted,
    ((index_matches_records initial_onMemory (Run.performAll hadmitted)).1 _ _).1 htarget⟩

end IngestCoordinator.Allocator
