-- SUMMARY: Every record has a text, which is JSON, decodes to the record and is written again as it was.
import IngestCoordinator.Catalog
import IngestCoordinator.Message
import IngestCoordinator.Proofs.Records
import IngestCoordinator.Registry
import Mathlib.Data.Set.Operations

/-!
# Round trips

What nodes report, what clients request, what nodes are told and what a catalog
holds is written as text just as the stored records are. The text is JSON for what
was written, whatever the fields hold; it decodes to the record again, and what is
decoded from it is written as the same text.
-/

namespace IngestCoordinator

open Json

/-! ## Keys, groups and nodes -/

theorem SegmentKey.roundTrips : RoundTrips SegmentKey.ofJson? SegmentKey.toJson where
  wellFormed key := wellFormed_record <| by
    simp [Identifier.roundTrips.wellFormed, wellFormed_ofString]
  read key := by
    unfold SegmentKey.ofJson? SegmentKey.toJson
    rw [Fields.ofJson?_record (by simp) (by simp)]
    refine Fields.required_bind rfl (Identifier.roundTrips.read key.collection) ?_
    refine Fields.required_bind rfl (Identifier.roundTrips.read key.partition) ?_
    exact Fields.required_bind rfl (string?_ofString key.channel) rfl

theorem ChannelGroup.roundTrips : RoundTrips ChannelGroup.ofJson? ChannelGroup.toJson where
  wellFormed group := wellFormed_record <| by
    simp [Identifier.roundTrips.wellFormed, wellFormed_ofString, wellFormed_ofList]
  read group := by
    unfold ChannelGroup.ofJson? ChannelGroup.toJson
    rw [Fields.ofJson?_record (by simp) (by simp)]
    refine Fields.required_bind rfl (string?_ofString group.name) ?_
    refine Fields.required_bind rfl (Identifier.roundTrips.read group.collection) ?_
    exact Fields.required_bind rfl (list?_ofList string?_ofString group.channels) rfl

theorem NodeInfo.roundTrips : RoundTrips NodeInfo.ofJson? NodeInfo.toJson where
  wellFormed node := wellFormed_record <| by
    simp [Identifier.roundTrips.wellFormed, wellFormed_ofString, wellFormed_ofList]
  read node := by
    unfold NodeInfo.ofJson? NodeInfo.toJson
    rw [Fields.ofJson?_record (by simp) (by simp)]
    refine Fields.required_bind rfl (Identifier.roundTrips.read node.id) ?_
    refine Fields.required_bind rfl (string?_ofString node.address) ?_
    exact Fields.required_bind rfl (list?_ofList string?_ofString node.groups) rfl

/-! ## Messages -/

theorem TimeTick.roundTrips : RoundTrips TimeTick.ofJson? TimeTick.toJson where
  wellFormed tick := wellFormed_record <| by
    simp [Identifier.roundTrips.wellFormed, wellFormed_ofNat]
  read tick := by
    unfold TimeTick.ofJson? TimeTick.toJson
    rw [Fields.ofJson?_record (by simp) (by simp)]
    refine Fields.required_bind rfl (Identifier.roundTrips.read tick.node) ?_
    exact Fields.required_bind rfl (uint64?_ofNat tick.timestamp) rfl

theorem Report.roundTrips : RoundTrips Report.ofJson? Report.toJson where
  wellFormed report := wellFormed_record <| by
    simp [Identifier.roundTrips.wellFormed, wellFormed_ofNat]
  read report := by
    unfold Report.ofJson? Report.toJson
    rw [Fields.ofJson?_record (by simp) (by simp)]
    refine Fields.required_bind rfl (Identifier.roundTrips.read report.segment) ?_
    refine Fields.required_bind rfl (uint64?_ofNat report.seq) ?_
    refine Fields.required_bind rfl (uint64?_ofNat report.rowDelta) ?_
    exact Fields.required_bind rfl (uint64?_ofNat report.memSize) rfl

theorem ReportBatch.roundTrips : RoundTrips ReportBatch.ofJson? ReportBatch.toJson where
  wellFormed batch := wellFormed_record <| by
    simp [Identifier.roundTrips.wellFormed, wellFormed_ofList Report.roundTrips.wellFormed]
  read batch := by
    unfold ReportBatch.ofJson? ReportBatch.toJson
    rw [Fields.ofJson?_record (by simp) (by simp)]
    refine Fields.required_bind rfl (Identifier.roundTrips.read batch.node) ?_
    exact Fields.required_bind rfl (list?_ofList Report.roundTrips.read batch.reports) rfl

theorem FlushCompleted.roundTrips : RoundTrips FlushCompleted.ofJson? FlushCompleted.toJson where
  wellFormed completed := wellFormed_record <| by
    simp [Identifier.roundTrips.wellFormed, wellFormed_ofNat]
  read completed := by
    unfold FlushCompleted.ofJson? FlushCompleted.toJson
    rw [Fields.ofJson?_record (by simp) (by simp)]
    refine Fields.required_bind rfl (Identifier.roundTrips.read completed.segment) ?_
    exact Fields.required_bind rfl (uint64?_ofNat completed.timestamp) rfl

/-! ## Requests and answers -/

theorem RowRequest.roundTrips : RoundTrips RowRequest.ofJson? RowRequest.toJson where
  wellFormed request := wellFormed_record <| by
    simp [Identifier.roundTrips.wellFormed, wellFormed_ofString, wellFormed_ofNat]
  read request := by
    unfold RowRequest.ofJson? RowRequest.toJson
    rw [Fields.ofJson?_record (by simp) (by simp)]
    refine Fields.required_bind rfl (Identifier.roundTrips.read request.key.collection) ?_
    refine Fields.required_bind rfl (Identifier.roundTrips.read request.key.partition) ?_
    refine Fields.required_bind rfl (string?_ofString request.key.channel) ?_
    exact Fields.required_bind rfl (uint64?_ofNat request.count) rfl

theorem FlushOutcome.roundTrips : RoundTrips FlushOutcome.ofJson? FlushOutcome.toJson where
  wellFormed outcome := wellFormed_record <| by
    simp [WellFormed.bool, wellFormed_ofList Identifier.roundTrips.wellFormed]
  read outcome := by
    unfold FlushOutcome.ofJson? FlushOutcome.toJson
    rw [Fields.ofJson?_record (by simp) (by simp)]
    -- A flag is read by evaluation, so that one step reads both fields.
    exact Fields.required_bind rfl (list?_ofList Identifier.roundTrips.read outcome.failed) rfl

theorem CatalogSnapshot.roundTrips : RoundTrips CatalogSnapshot.ofJson? CatalogSnapshot.toJson where
  wellFormed snapshot := wellFormed_record <| by
    simp [wellFormed_ofString, wellFormed_ofList Collection.roundTrips.wellFormed]
  read snapshot := by
    unfold CatalogSnapshot.ofJson? CatalogSnapshot.toJson
    rw [Fields.ofJson?_record (by simp) (by simp)]
    refine Fields.required_bind rfl (string?_ofString snapshot.ddChannel) ?_
    exact Fields.defaulted_bind rfl
      (list?_ofList Collection.roundTrips.read snapshot.collections) rfl

/-! ## Texts -/

/-- The text of a record, as it is stored and sent. -/
def Json.encode {α : Type} (write : α → Json) (item : α) : Bytes :=
  (write item).write

/-- Encoding loses nothing: not the fields, not their values, and not the text. -/
structure Lossless {α : Type} (read? : Json → Option α) (write : α → Json) : Prop where
  /-- The text is JSON for what was written. -/
  parses : ∀ item, parse? (encode write item) = some (write item)
  decodes : ∀ item, decode read? (encode write item) = some item
  /-- Whatever text is an encoding decodes, and is the encoding of what it decodes to. -/
  encodes : ∀ text ∈ Set.range (encode write),
    ∃ item, decode read? text = some item ∧ encode write item = text

theorem Json.RoundTrips.lossless {α : Type} {read? : Json → Option α} {write : α → Json}
    (h : RoundTrips read? write) : Lossless read? write where
  parses item := parse?_write (h.wellFormed item)
  decodes := h.decode
  encodes := by
    rintro _ ⟨item, rfl⟩
    exact ⟨item, h.decode item, rfl⟩

/-- The text of every record, whatever its fields hold, decodes to the record. -/
theorem records_lossless :
    Lossless Segment.ofJson? Segment.toJson ∧
    Lossless Collection.ofJson? Collection.toJson ∧
    Lossless Schema.ofJson? Schema.toJson ∧
    Lossless Ledger.ofJson? Ledger.toJson ∧
    Lossless SegmentKey.ofJson? SegmentKey.toJson ∧
    Lossless ChannelGroup.ofJson? ChannelGroup.toJson ∧
    Lossless NodeInfo.ofJson? NodeInfo.toJson ∧
    Lossless TimeTick.ofJson? TimeTick.toJson ∧
    Lossless ReportBatch.ofJson? ReportBatch.toJson ∧
    Lossless FlushCompleted.ofJson? FlushCompleted.toJson ∧
    Lossless RowRequest.ofJson? RowRequest.toJson ∧
    Lossless FlushOutcome.ofJson? FlushOutcome.toJson ∧
    Lossless CatalogSnapshot.ofJson? CatalogSnapshot.toJson :=
  ⟨Segment.roundTrips.lossless, Collection.roundTrips.lossless, Schema.roundTrips.lossless,
    Ledger.roundTrips.lossless, SegmentKey.roundTrips.lossless, ChannelGroup.roundTrips.lossless,
    NodeInfo.roundTrips.lossless, TimeTick.roundTrips.lossless, ReportBatch.roundTrips.lossless,
    FlushCompleted.roundTrips.lossless, RowRequest.roundTrips.lossless,
    FlushOutcome.roundTrips.lossless, CatalogSnapshot.roundTrips.lossless⟩

end IngestCoordinator
