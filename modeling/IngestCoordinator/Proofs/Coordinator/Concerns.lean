-- SUMMARY: Which requests move nodes, which apply reports on statistics, and that no other does either.
import IngestCoordinator.Proofs.Coordinator.Effects
import IngestCoordinator.Proofs.Segment.Statistics

/-!
# What requests are about

Few requests have nodes come, go or report, and one applies the reports on
statistics. All others keep the registered nodes, the barrier and the statistics of
every segment as they are.
-/

namespace IngestCoordinator

open Operation

/-- The same nodes are registered. -/
def Registry.SameNodes (a b : Registry) : Prop :=
  a.Sound → b.Sound ∧ ∀ id, b.Has id ↔ a.Has id

theorem Registry.SameNodes.of_eq {a b : Registry} (h : b = a) : a.SameNodes b := by
  subst h
  exact fun hsound => ⟨hsound, fun _ => Iff.rfl⟩

namespace Coordinator

variable {c d : Coordinator} {marks : Timestamp → Prop}
  {sealed : List Segment} {collection : CollectionId} {groups : List ChannelGroup}

/-- Nodes, barrier and statistics are as they were. -/
structure Spares (c d : Coordinator) : Prop where
  allocator : c.allocator.Evolved (fun write => write.isReport = false) d.allocator
  registry : c.cluster.registry.SameNodes d.cluster.registry
  barrier : d.barrier = c.barrier

theorem Spares.of_eq (hallocator : d.allocator = c.allocator)
    (hregistry : d.cluster.registry = c.cluster.registry) (hbarrier : d.barrier = c.barrier) :
    c.Spares d :=
  ⟨hallocator ▸ .of_eq rfl (UInt64.le_refl _), .of_eq hregistry, hbarrier⟩

theorem Wrote.spares (h : c.Wrote (fun write => write.isReport = false) d) : c.Spares d :=
  ⟨h.allocator.evolved, .of_eq (h.cluster ▸ rfl), h.barrier⟩

theorem Recovers.spares (h : c.Recovers d) : c.Spares d := by
  refine ⟨h.allocator.mono ?_, .of_eq h.registry, h.barrier⟩
  rintro _ ⟨id, rfl⟩
  rfl

theorem Divides.spares (h : c.Divides d) : c.Spares d :=
  .of_eq h.allocator (h.cluster ▸ rfl) h.barrier

theorem Watches.spares (h : c.Watches collection groups d) : c.Spares d where
  allocator := h.allocator ▸ .of_eq rfl (UInt64.le_refl _)
  registry hsound := ⟨(h.registry hsound).sound, (h.registry hsound).nodes⟩
  barrier := h.barrier

theorem spares_of_seals (h : c.allocator.Seals marks sealed d.allocator)
    (hcluster : d.cluster = c.cluster.requestFlush sealed) (hbarrier : d.barrier = c.barrier) :
    c.Spares d :=
  ⟨h.evolved (fun _ => rfl) fun _ _ => rfl, .of_eq (hcluster ▸ rfl), hbarrier⟩

theorem spares_onWatermark (watermark : Timestamp) (phase : Phase) :
    c.Spares (onWatermark watermark { c with phase }).2 :=
  have hseals : c.allocator.Seals (fun _ => True) _ _ := .atMark trivial
  spares_of_seals hseals rfl rfl

theorem spares_insertChannels (collection : CollectionId) (hsound : c.allocator.Sound) :
    c.Spares ((insertChannels collection).attempt c).2 := by
  refine Ensures.attempt_snd ((ensures_insertChannels collection hsound.truthful).imp
    (fun _ d h => ?_) fun _ d h => h.spares)
  obtain ⟨groups, _, ⟨_, hdivides⟩ | hwatches⟩ := h
  · exact hdivides.spares
  · exact hwatches.spares

/-! ## Requests -/

/-- Whether a request has nodes come, go or report. -/
def Request.isAboutNodes : Request → Bool
  | .register .. | .deregister _ | .reap | .sendTimeTick _ | .readTimeTicks | .runReaper => true
  | _ => false

/-- What a request is about. -/
inductive Concerns (request : Request) (c d : Coordinator) : Prop where
  | nodes (hrequest : request.isAboutNodes = true) (h : c.Moves d)
  | statistics (hrequest : request = .readStatistics) (h : c.Wrote (fun _ => True) d)
  | neither (h : c.Spares d)

/-- Every request but the settling of all duties is about nodes or statistics, or spares both. -/
theorem concerns_perform (request : Request) (hsettle : request ≠ .settle)
    (hsound : c.allocator.Sound) : Concerns request c (perform request c).2 := by
  cases request with
  | register address node =>
    exact .nodes rfl ((preserves_register address node).attempt (.refl c))
  | deregister node => exact .nodes rfl ((preserves_deregister node).attempt (.refl c))
  | reap => exact .nodes rfl moves_reap
  | sendTimeTick tick => exact .nodes rfl (.of_eq rfl rfl rfl rfl)
  | readTimeTicks => exact .nodes rfl moves_readTimeTicks
  | runReaper => exact .nodes rfl moves_runReaper
  | readStatistics => exact .statistics rfl (wrote_readStatistics fun _ _ _ _ => trivial)
  | settle => exact absurd rfl hsettle
  | start => exact .neither (recovers_start hsound).spares
  | stop =>
    change Concerns _ c c.stop
    unfold stop
    dsimp only
    split <;> exact .neither (.of_eq rfl rfl rfl)
  | addCollection collection =>
    exact .neither (((preserves_addCollection collection).attempt (.refl c)).spares)
  | assign requests =>
    exact .neither <| (wrote_assign hsound (fun _ _ => rfl) (fun _ _ => rfl) (fun _ => rfl)
      (fun _ => rfl) requests (.refl c)).spares
  | openSegment key =>
    exact .neither <| ((preserves_openSegment hsound (fun _ _ => rfl) (fun _ _ => rfl)
      (fun _ => rfl) key).attempt (.refl c)).spares
  | flush collection =>
    rcases @flush_cases c (fun _ => True) collection with heq | ⟨_, hseals, hcluster, hbarrier, _⟩
    · rw [heq]
      exact .neither (.of_eq rfl rfl rfl)
    · exact .neither (spares_of_seals hseals hcluster hbarrier)
  | insertChannels collection => exact .neither (spares_insertChannels collection hsound)
  | times id =>
    simp only [perform]
    split <;> exact .neither (.of_eq rfl rfl rfl)
  | sendStatistics batch => exact .neither (.of_eq rfl rfl rfl)
  | sendFlushCompleted completed => exact .neither (.of_eq rfl rfl rfl)
  | watermark watermark => exact .neither (spares_onWatermark watermark c.phase)
  | readFlushes => exact .neither ((wrote_readFlushes fun _ _ => rfl).spares)
  | runWatcher =>
    change Concerns _ c c.runWatcher
    unfold runWatcher
    split
    · dsimp only
      split
      · exact .neither (spares_onWatermark _ _)
      · exact .neither (.of_eq rfl rfl rfl)
    · exact .neither (.of_eq rfl rfl rfl)
    · exact .neither (.of_eq rfl rfl rfl)
  | deliver => exact .neither (.of_eq rfl rfl rfl)

end Coordinator

end IngestCoordinator
