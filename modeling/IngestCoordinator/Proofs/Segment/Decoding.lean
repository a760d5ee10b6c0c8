-- SUMMARY: Stored segments decode whatever the order of their fields, the blanks and the fields added.
import IngestCoordinator.Proofs.Json.Objects
import IngestCoordinator.Proofs.Records

/-!
# Decoding stored segments

What was stored by another version, or edited by hand, is decoded to the same segment as
what the store has written itself, if it says the same: fields in another order, with blanks
between them and with fields that are not known, and without those that only say what is
assumed of them anyway. If any other field is missing, or a known one is there twice, nothing
is decoded. The same holds of the ledger inside a segment.
-/

namespace IngestCoordinator

open Json

/-! ## Ledgers -/

namespace Ledger

variable {ledger : Ledger} {value : Json}

def fieldNames : List String :=
  ["applied_through", "applied_above", "size_seq"]

def requiredNames : List String :=
  ["applied_through"]

/-- The fields that make no difference, because they hold what is assumed without them. -/
def MayOmit (ledger : Ledger) (name : String) : Prop :=
  name = "applied_above" ∧ ledger.above = .empty ∨ name = "size_seq" ∧ ledger.sizeSeq = 0

/-- An object that says what the ledger's own one says. -/
inductive SaidBy (ledger : Ledger) : Json → Prop where
  | object {omitted : List String} {fields : List (Bytes × Json)}
      (homitted : ∀ name ∈ omitted, ledger.MayOmit name)
      (h : Renders fieldNames ledger.toJson.entries omitted fields) : SaidBy ledger (.object fields)

theorem names_entries (ledger : Ledger) : ledger.toJson.entries.map (·.1) = fieldNames := by
  rw [toJson, entries_record]
  rfl

theorem ofJson?_toJson (ledger : Ledger) :
    Fields.ofJson? fieldNames ledger.toJson = some ⟨true, ledger.toJson.entries⟩ :=
  Fields.ofJson?_own rfl rfl (by decide)

/-- The sequence numbers past the mark, as a ledger reads them. -/
def readAbove? (value : Json) : Option (SortedSet UInt64) :=
  (value.list? uint64?).map SortedSet.ofElems

/-- A ledger is read from what stands under the names of its fields. -/
theorem found_of_ofJson? (h : Ledger.ofJson? value = some ledger) :
    ∃ found, Fields.ofJson? fieldNames value = some found ∧
      (∀ name ∈ requiredNames, (found.given.lookup name).isSome) ∧
      found.defaulted "applied_above" .empty readAbove? = some ledger.above ∧
      found.defaulted "size_seq" 0 uint64? = some ledger.sizeSeq := by
  obtain ⟨found, hfound, h⟩ := Option.bind_eq_some_iff.1 h
  obtain ⟨through, hthrough, h⟩ := Option.bind_eq_some_iff.1 h
  obtain ⟨above, habove, h⟩ := Option.bind_eq_some_iff.1 h
  obtain ⟨sizeSeq, hsizeSeq, h⟩ := Option.bind_eq_some_iff.1 h
  cases Option.some.inj h
  refine ⟨found, hfound, fun name hname => ?_, habove, hsizeSeq⟩
  cases List.mem_singleton.1 hname
  exact Fields.isSome_of_required hthrough

/-- What is found under its names decides which ledger is read. -/
theorem ofJson?_congr {value' : Json} {found found' : Fields}
    (hvalue : Fields.ofJson? fieldNames value = some found)
    (hvalue' : Fields.ofJson? fieldNames value' = some found')
    (hrequired : ∀ name ∈ requiredNames, found'.given.lookup name = found.given.lookup name)
    (habove : found'.defaulted "applied_above" .empty readAbove? =
      found.defaulted "applied_above" .empty readAbove?)
    (hsizeSeq : found'.defaulted "size_seq" 0 uint64? = found.defaulted "size_seq" 0 uint64?) :
    Ledger.ofJson? value' = Ledger.ofJson? value := by
  have hthrough := Fields.required_congr (hrequired "applied_through" (by decide)) uint64?
  unfold readAbove? at habove
  rw [fieldNames] at hvalue hvalue'
  unfold ofJson?
  rw [hvalue, hvalue', Option.bind_eq_bind, Option.bind_some, Option.bind_eq_bind, Option.bind_some]
  simp only [hthrough, habove, hsizeSeq]

theorem ofJson?_of_spoiled {fields : List (Bytes × Json)}
    (h : Spoiled fieldNames requiredNames fields) : Ledger.ofJson? (.object fields) = none := by
  rw [Option.eq_none_iff_forall_ne_some]
  intro ledger hread
  obtain ⟨found, hfound, hrequired, -⟩ := found_of_ofJson? hread
  exact Fields.not_spoiled hfound hrequired h

theorem MayOmit.not_required {name : String} (h : ledger.MayOmit name) : name ∉ requiredNames := by
  rcases h with ⟨rfl, -⟩ | ⟨rfl, -⟩
  · decide
  · decide

namespace SaidBy

theorem wellFormed (h : ledger.SaidBy value) : WellFormed value := by
  cases h with
  | object _ h =>
    exact h.wellFormed fun field hfield => (roundTrips.wellFormed ledger).of_mem_entries hfield

theorem ofJson? (h : ledger.SaidBy value) : Ledger.ofJson? value = some ledger := by
  cases h with
  | @object omitted fields homitted h =>
    have hown : Ledger.ofJson? ledger.toJson = some ledger := roundTrips.read ledger
    obtain ⟨found, hfound, -, habove, hsizeSeq⟩ := found_of_ofJson? hown
    cases ledger.ofJson?_toJson.symm.trans hfound
    obtain ⟨found', hfound', -, hlookup⟩ := h.exists_found ledger.names_entries (by decide)
    refine (ofJson?_congr hfound hfound' (fun name hname => ?_) ?_ ?_).trans hown
    · rw [hlookup, if_neg fun hmem => (homitted name hmem).not_required hname]
    · rw [habove]
      refine Fields.defaulted_of_omitted (hlookup _) habove fun hmem => ?_
      simpa [MayOmit] using homitted _ hmem
    · rw [hsizeSeq]
      refine Fields.defaulted_of_omitted (hlookup _) hsizeSeq fun hmem => ?_
      simpa [MayOmit] using homitted _ hmem

end SaidBy

end Ledger

/-! ## Segments -/

namespace Segment

variable {segment : Segment} {value : Json} {text : Bytes}

def requiredNames : List String :=
  ["segment_id", "collection_id", "partition_id", "insert_channel", "channel_group", "state",
    "open_time", "sealed_time", "flushed_time", "capacity", "next_offset", "last_expire_time",
    "num_rows", "mem_size"]

def MayOmit (segment : Segment) (name : String) : Prop :=
  name = "node_id" ∧ segment.node = none ∨ name = "superseded" ∧ segment.superseded = false ∨
    name = "stats" ∧ segment.ledger = {}

/-- An object that says what the segment's own one says. -/
inductive SaidBy (segment : Segment) : Json → Prop where
  | object {stats : Json} {omitted : List String} {fields : List (Bytes × Json)}
      (hstats : segment.ledger.SaidBy stats) (homitted : ∀ name ∈ omitted, segment.MayOmit name)
      (h : Renders fieldNames (setField "stats" stats segment.toJson.entries) omitted fields) :
      SaidBy segment (.object fields)

/-- A segment is read from what stands under the names of its fields. -/
theorem found_of_ofJson? (h : Segment.ofJson? value = some segment) :
    ∃ found, Fields.ofJson? fieldNames value = some found ∧
      (∀ name ∈ requiredNames, (found.given.lookup name).isSome) ∧
      found.optional "node_id" Identifier.ofJson? = some segment.node ∧
      found.defaulted "superseded" false bool? = some segment.superseded ∧
      found.defaulted "stats" {} Ledger.ofJson? = some segment.ledger := by
  obtain ⟨found, hfound, h⟩ := Option.bind_eq_some_iff.1 h
  obtain ⟨id, hid, h⟩ := Option.bind_eq_some_iff.1 h
  obtain ⟨collection, hcollection, h⟩ := Option.bind_eq_some_iff.1 h
  obtain ⟨partition, hpartition, h⟩ := Option.bind_eq_some_iff.1 h
  obtain ⟨channel, hchannel, h⟩ := Option.bind_eq_some_iff.1 h
  obtain ⟨group, hgroup, h⟩ := Option.bind_eq_some_iff.1 h
  obtain ⟨node, hnode, h⟩ := Option.bind_eq_some_iff.1 h
  obtain ⟨state, hstate, h⟩ := Option.bind_eq_some_iff.1 h
  obtain ⟨openTime, hopenTime, h⟩ := Option.bind_eq_some_iff.1 h
  obtain ⟨sealedTime, hsealedTime, h⟩ := Option.bind_eq_some_iff.1 h
  obtain ⟨flushedTime, hflushedTime, h⟩ := Option.bind_eq_some_iff.1 h
  obtain ⟨capacity, hcapacity, h⟩ := Option.bind_eq_some_iff.1 h
  obtain ⟨nextOffset, hnextOffset, h⟩ := Option.bind_eq_some_iff.1 h
  obtain ⟨lastExpireTime, hlastExpireTime, h⟩ := Option.bind_eq_some_iff.1 h
  obtain ⟨superseded, hsuperseded, h⟩ := Option.bind_eq_some_iff.1 h
  obtain ⟨numRows, hnumRows, h⟩ := Option.bind_eq_some_iff.1 h
  obtain ⟨memSize, hmemSize, h⟩ := Option.bind_eq_some_iff.1 h
  obtain ⟨ledger, hledger, h⟩ := Option.bind_eq_some_iff.1 h
  cases Option.some.inj h
  refine ⟨found, hfound, fun name hname => ?_, hnode, hsuperseded, hledger⟩
  simp only [requiredNames, List.mem_cons, List.not_mem_nil, or_false] at hname
  rcases hname with rfl | rfl | rfl | rfl | rfl | rfl | rfl | rfl | rfl | rfl | rfl | rfl | rfl |
    rfl
  all_goals exact Fields.isSome_of_required (by assumption)

theorem ofJson?_congr {value' : Json} {found found' : Fields}
    (hvalue : Fields.ofJson? fieldNames value = some found)
    (hvalue' : Fields.ofJson? fieldNames value' = some found')
    (hrequired : ∀ name ∈ requiredNames, found'.given.lookup name = found.given.lookup name)
    (hnode : found'.optional "node_id" (@Identifier.ofJson? .node) =
      found.optional "node_id" Identifier.ofJson?)
    (hsuperseded : found'.defaulted "superseded" false bool? =
      found.defaulted "superseded" false bool?)
    (hstats : found'.defaulted "stats" {} Ledger.ofJson? =
      found.defaulted "stats" {} Ledger.ofJson?) :
    Segment.ofJson? value' = Segment.ofJson? value := by
  have hread {α : Type} {name : String} (hname : name ∈ requiredNames) (read? : Json → Option α) :
      found'.required name read? = found.required name read? :=
    Fields.required_congr (hrequired name hname) read?
  unfold ofJson?
  rw [hvalue, hvalue', Option.bind_eq_bind, Option.bind_some, Option.bind_eq_bind, Option.bind_some]
  simp (disch := decide) only [hread, hnode, hsuperseded, hstats]

theorem names_entries (segment : Segment) : segment.toJson.entries.map (·.1) = fieldNames := by
  rw [toJson, entries_record]
  rfl

theorem ofJson?_toJson (segment : Segment) :
    Fields.ofJson? fieldNames segment.toJson = some ⟨true, segment.toJson.entries⟩ :=
  Fields.ofJson?_own rfl rfl (by decide)

theorem MayOmit.not_required {name : String} (h : segment.MayOmit name) :
    name ∉ requiredNames := by
  rcases h with ⟨rfl, -⟩ | ⟨rfl, -⟩ | ⟨rfl, -⟩
  · decide
  · decide
  · decide

namespace SaidBy

theorem wellFormed (h : segment.SaidBy value) : WellFormed value := by
  cases h with
  | object hstats _ h =>
    refine h.wellFormed fun field hfield => ?_
    rcases of_mem_setField hfield with rfl | hfield
    · exact hstats.wellFormed
    · exact (roundTrips.wellFormed segment).of_mem_entries hfield

theorem ofJson? (h : segment.SaidBy value) : Segment.ofJson? value = some segment := by
  cases h with
  | @object stats omitted fields hstats homitted h =>
    have hown : Segment.ofJson? segment.toJson = some segment := roundTrips.read segment
    obtain ⟨found, hfound, -, hnode, hsuperseded, hledger⟩ := found_of_ofJson? hown
    cases segment.ofJson?_toJson.symm.trans hfound
    obtain ⟨found', hfound', hnamed, hlookup⟩ :=
      h.exists_found (map_fst_setField.trans segment.names_entries) (by decide)
    have hother {name : String} (hname : name ≠ "stats") : found'.given.lookup name =
        if name ∈ omitted then none else segment.toJson.entries.lookup name := by
      rw [hlookup, lookup_setField, if_neg hname]
    refine (ofJson?_congr hfound hfound' (fun name hname => ?_) ?_ ?_ ?_).trans hown
    · have hne : name ≠ "stats" := by
        rintro rfl
        exact absurd hname (by decide)
      rw [hother hne, if_neg fun hmem => (homitted name hmem).not_required hname]
    · rw [hnode]
      refine Fields.optional_of_omitted hnamed rfl (hother (by decide)) hnode fun hmem => ?_
      simpa [MayOmit] using homitted _ hmem
    · rw [hsuperseded]
      refine Fields.defaulted_of_omitted (hother (by decide)) hsuperseded fun hmem => ?_
      simpa [MayOmit] using homitted _ hmem
    · have hown : (segment.toJson.entries.lookup "stats").isSome := by
        rw [toJson, entries_record]
        rfl
      obtain ⟨own, hown⟩ := Option.isSome_iff_exists.1 hown
      rw [hledger, Fields.defaulted, hlookup, lookup_setField, if_pos rfl, hown]
      by_cases hmem : "stats" ∈ omitted
      · have hdefault : segment.ledger = {} := by
          simpa [MayOmit] using homitted _ hmem
        rw [if_pos hmem, hdefault]
      · rw [if_neg hmem]
        exact hstats.ofJson?

end SaidBy

/-- Nothing is read if a field is spoiled, be it in the object itself or in its ledger. -/
theorem ofJson?_of_spoiled {fields : List (Bytes × Json)}
    (h : Spoiled fieldNames requiredNames fields ∨ ∃ lexeme inner,
      (lexeme, .object inner) ∈ fields ∧ text? lexeme = some "stats" ∧
        Spoiled Ledger.fieldNames Ledger.requiredNames inner) :
    Segment.ofJson? (.object fields) = none := by
  rw [Option.eq_none_iff_forall_ne_some]
  intro segment hread
  obtain ⟨found, hfound, hrequired, -, -, hledger⟩ := found_of_ofJson? hread
  rcases h with hspoiled | ⟨lexeme, inner, hmem, htext, hspoiled⟩
  · exact Fields.not_spoiled hfound hrequired hspoiled
  · have hstats : found.given.lookup "stats" = some (.object inner) :=
      (Fields.lookup_iff hfound).2 ⟨by decide, lexeme, hmem, htext⟩
    rw [Fields.defaulted, hstats] at hledger
    cases (Ledger.ofJson?_of_spoiled hspoiled).symm.trans hledger

/-- Any text of an object that says what the segment says decodes to the segment. A text
decodes to nothing if its object lacks one of the fields that must be there or has a known
field twice. -/
theorem decodes_tolerantly (segment : Segment) :
    (∀ {value text}, segment.SaidBy value → Spaced value.tokens text →
      decode Segment.ofJson? text = some segment) ∧
    ∀ {fields text}, WellFormed (.object fields) → Spaced (Json.object fields).tokens text →
      (Spoiled fieldNames requiredNames fields ∨ ∃ lexeme inner,
        (lexeme, .object inner) ∈ fields ∧ text? lexeme = some "stats" ∧
          Spoiled Ledger.fieldNames Ledger.requiredNames inner) →
      decode Segment.ofJson? text = none := by
  constructor
  · intro value text hsaid htext
    rw [decode, parse?_of_spaced hsaid.wellFormed htext, Option.bind_some]
    exact hsaid.ofJson?
  · intro fields text hwellFormed htext hspoiled
    rw [decode, parse?_of_spaced hwellFormed htext, Option.bind_some]
    exact ofJson?_of_spoiled hspoiled

/-- The fields stand in reverse behind a note, with blanks before every token, and what holds
defaults is left out. Without the state, or with a second one, nothing is read. -/
theorem decodes_tolerantly_edited :
    let segment := fresh ⟨7⟩ ⟨⟨1⟩, ⟨2⟩, "rows"⟩ "group" none 100 5
    let note := (lexeme "note", Json.array [.null, .object [(lexeme "state", .array [])]])
    let written (given : List (String × Json)) (omitted : List String) :=
      (given.filter fun field => field.1 ∉ omitted).map fun field => (lexeme field.1, field.2)
    let stats := Json.object (written segment.ledger.toJson.entries ["applied_above", "size_seq"])
    let kept := written (setField "stats" stats segment.toJson.entries) ["node_id", "superseded"]
    let text (fields : List (Bytes × Json)) :=
      (Json.object fields).tokens.flatMap fun token => [32, 10] ++ token.write
    decode Segment.ofJson? (text (note :: kept.reverse)) = some segment ∧
      decode Segment.ofJson? (text (written segment.toJson.entries ["state"])) = none ∧
      decode Segment.ofJson? (text ((lexeme "state", .null) :: written segment.toJson.entries [])) =
        none := by
  intro segment note written stats kept text
  have hspaced (fields : List (Bytes × Json)) : Spaced (Json.object fields).tokens (text fields) :=
    spaced_flatMap (List.forall_mem_cons.2 ⟨rfl, List.forall_mem_singleton.2 rfl⟩) _
  have hwellFormed (omitted : List String) :
      WellFormed (.object (written segment.toJson.entries omitted)) :=
    (renders_kept fieldNames _ omitted).wellFormed fun field hfield =>
      (roundTrips.wellFormed segment).of_mem_entries hfield
  refine ⟨?_, ?_, ?_⟩
  · have hdeep : WellFormed (.object [(lexeme "state", .array [])]) :=
      .object (List.forall_mem_singleton.2 (isStringLexeme_lexeme _))
        (List.forall_mem_singleton.2 (.array (List.forall_mem_nil _)))
    have hnote : Foreign fieldNames note :=
      ⟨isStringLexeme_lexeme _,
        .array (List.forall_mem_cons.2 ⟨.null, List.forall_mem_singleton.2 hdeep⟩),
        "note", text?_lexeme _, by decide⟩
    have hstats : segment.ledger.SaidBy stats :=
      .object (by simp [Ledger.MayOmit, segment, fresh]) (renders_kept ..)
    have hperm : ([note] ++ kept).Perm (kept ++ [note]) := List.perm_append_comm
    have hrenders : Renders fieldNames (setField "stats" stats segment.toJson.entries)
        ["node_id", "superseded"] (note :: kept.reverse) :=
      ⟨[note], List.forall_mem_singleton.2 hnote, ((List.reverse_perm kept).cons note).trans hperm⟩
    have hsaid : segment.SaidBy (.object (note :: kept.reverse)) :=
      .object hstats (by simp [MayOmit, segment, fresh]) hrenders
    exact (decodes_tolerantly segment).1 hsaid (hspaced _)
  · have hneeded : "state" ∈ requiredNames := by decide
    have hspoiled := (renders_kept fieldNames segment.toJson.entries ["state"]).spoiled hneeded
      (by decide) (by decide)
    exact (decodes_tolerantly segment).2 (hwellFormed _) (hspaced _) (.inl hspoiled)
  · have hagain : WellFormed
        (.object ((lexeme "state", .null) :: written segment.toJson.entries [])) := by
      cases hwellFormed [] with
      | object hnames hvalues =>
        exact .object (List.forall_mem_cons.2 ⟨isStringLexeme_lexeme _, hnames⟩)
          (List.forall_mem_cons.2 ⟨.null, hvalues⟩)
    have hown : (lexeme "state", segment.state.toJson) ∈ written segment.toJson.entries [] := by
      rw [toJson, entries_record]
      simp [written]
    refine (decodes_tolerantly segment).2 hagain (hspaced _) (.inl (.inr ?_))
    exact ⟨_, _, "state", List.cons_sublist_cons.2 (List.singleton_sublist.2 hown), by decide,
      text?_lexeme _, text?_lexeme _⟩

end Segment

end IngestCoordinator
