-- SUMMARY: Stored records read back: identifiers, collections, ledgers and segments.
import IngestCoordinator.Collection
import IngestCoordinator.Proofs.Json.Records
import IngestCoordinator.Proofs.SortedMap
import IngestCoordinator.Segment.Basic

/-!
# Stored records

Every record that the store keeps is written as text that decodes to the record
again, whatever its fields hold. A store can therefore be opened again on what it
has written.
-/

namespace IngestCoordinator

open Json

theorem Identifier.roundTrips {kind : Kind} :
    RoundTrips (@Identifier.ofJson? kind) Identifier.toJson where
  wellFormed id := wellFormed_ofInt id.val.toInt
  read id := by
    rw [Identifier.ofJson?, Identifier.toJson, int64?_ofInt]
    rfl

/-! ## Collections -/

theorem DataType.roundTrips : RoundTrips DataType.ofJson? DataType.toJson where
  wellFormed type := wellFormed_ofString type.name
  read type := by
    rw [DataType.ofJson?, DataType.toJson, word?_ofString, Option.bind_some, DataType.ofName?_name]

theorem Field.roundTrips : RoundTrips Field.ofJson? Field.toJson where
  wellFormed field := wellFormed_record <| by
    simp [wellFormed_ofString, DataType.roundTrips.wellFormed, wellFormed_ofNat]
  read field := by
    unfold Field.ofJson? Field.toJson
    rw [Fields.ofJson?_record (by simp) (by simp)]
    refine Fields.required_bind rfl (string?_ofString field.name) ?_
    refine Fields.required_bind rfl (DataType.roundTrips.read field.type) ?_
    exact Fields.defaulted_bind rfl (uint32?_ofNat field.dim) rfl

theorem Schema.roundTrips : RoundTrips Schema.ofJson? Schema.toJson where
  wellFormed schema := wellFormed_record <| by
    simp [wellFormed_ofString, wellFormed_ofList Field.roundTrips.wellFormed]
  read schema := by
    unfold Schema.ofJson? Schema.toJson
    rw [Fields.ofJson?_record (by simp) (by simp)]
    refine Fields.required_bind rfl (string?_ofString schema.name) ?_
    exact Fields.required_bind rfl (list?_ofList Field.roundTrips.read schema.fields) rfl

theorem Collection.roundTrips : RoundTrips Collection.ofJson? Collection.toJson where
  wellFormed collection := wellFormed_record <| by
    simp [Identifier.roundTrips.wellFormed, Schema.roundTrips.wellFormed,
      wellFormed_ofList Identifier.roundTrips.wellFormed]
  read collection := by
    unfold Collection.ofJson? Collection.toJson
    rw [Fields.ofJson?_record (by simp) (by simp)]
    refine Fields.required_bind rfl (Identifier.roundTrips.read collection.id) ?_
    refine Fields.required_bind rfl (Schema.roundTrips.read collection.schema) ?_
    exact Fields.required_bind rfl
      (list?_ofList Identifier.roundTrips.read collection.partitions) rfl

/-! ## Segments -/

theorem SegmentState.roundTrips : RoundTrips SegmentState.ofJson? SegmentState.toJson where
  wellFormed state := wellFormed_ofString state.name
  read state := by
    rw [SegmentState.ofJson?, SegmentState.toJson, word?_ofString, Option.bind_some,
      SegmentState.ofName?_name]

theorem Ledger.roundTrips : RoundTrips Ledger.ofJson? Ledger.toJson where
  wellFormed ledger := wellFormed_record <| by
    simp [wellFormed_ofNat, wellFormed_ofList fun seq : UInt64 => wellFormed_ofNat seq.toNat]
  read ledger := by
    unfold Ledger.ofJson? Ledger.toJson
    rw [Fields.ofJson?_record (by simp) (by simp)]
    have habove : ((ofList (fun seq : UInt64 => ofNat seq.toNat) ledger.above.elems).list?
        uint64?).map SortedSet.ofElems = some ledger.above := by
      rw [list?_ofList uint64?_ofNat, Option.map_some, SortedSet.ofElems_elems]
    refine Fields.required_bind rfl (uint64?_ofNat ledger.through) ?_
    refine Fields.defaulted_bind rfl habove ?_
    exact Fields.defaulted_bind rfl (uint64?_ofNat ledger.sizeSeq) rfl

/-- An optional identifier is written as null or as a number, and so read back. -/
theorem Fields.optional_bind {kind : Kind} {fields : Fields} {name : String}
    {id : Option (Identifier kind)} {next : Option (Identifier kind) → Option α} {result : Option α}
    (hgiven : fields.given.lookup name = some (ofOption Identifier.toJson id))
    (hnext : next id = result) : (fields.optional name Identifier.ofJson? >>= next) = result := by
  have hread : fields.optional name Identifier.ofJson? = some id := by
    cases id with
    | none => simp only [Fields.optional, hgiven, ofOption]
    | some id =>
      have hread : Identifier.ofJson? (ofInt id.val.toInt) = some id :=
        Identifier.roundTrips.read id
      simp only [Fields.optional, hgiven, ofOption, Identifier.toJson, ofInt] at hread ⊢
      rw [hread, Option.map_some]
  rw [hread]
  exact hnext

theorem Segment.roundTrips : RoundTrips Segment.ofJson? Segment.toJson where
  wellFormed segment := wellFormed_record <| by
    simp [Identifier.roundTrips.wellFormed, wellFormed_ofString, wellFormed_ofNat,
      wellFormed_ofOption Identifier.roundTrips.wellFormed, SegmentState.roundTrips.wellFormed,
      WellFormed.bool, Ledger.roundTrips.wellFormed]
  read segment := by
    unfold Segment.ofJson? Segment.toJson
    rw [Fields.ofJson?_record (by simp [Segment.fieldNames]) (by simp)]
    -- The fields are read one by one, in the order in which they are asked for.
    refine Fields.required_bind rfl (Identifier.roundTrips.read segment.id) ?_
    refine Fields.required_bind rfl (Identifier.roundTrips.read segment.collection) ?_
    refine Fields.required_bind rfl (Identifier.roundTrips.read segment.partition) ?_
    refine Fields.required_bind rfl (string?_ofString segment.channel) ?_
    refine Fields.required_bind rfl (string?_ofString segment.group) ?_
    refine @Fields.optional_bind _ .node _ _ segment.node _ _ rfl ?_
    refine Fields.required_bind rfl (SegmentState.roundTrips.read segment.state) ?_
    refine Fields.required_bind rfl (uint64?_ofNat segment.openTime) ?_
    refine Fields.required_bind rfl (uint64?_ofNat segment.sealedTime) ?_
    refine Fields.required_bind rfl (uint64?_ofNat segment.flushedTime) ?_
    refine Fields.required_bind rfl (uint64?_ofNat segment.capacity) ?_
    refine Fields.required_bind rfl (uint64?_ofNat segment.nextOffset) ?_
    refine Fields.required_bind rfl (uint64?_ofNat segment.lastExpireTime) ?_
    refine Fields.defaulted_bind rfl (rfl : Json.bool? (.bool segment.superseded) = _) ?_
    refine Fields.required_bind rfl (uint64?_ofNat segment.numRows) ?_
    refine Fields.required_bind rfl (uint64?_ofNat segment.memSize) ?_
    exact Fields.defaulted_bind rfl (Ledger.roundTrips.read segment.ledger) rfl

end IngestCoordinator
