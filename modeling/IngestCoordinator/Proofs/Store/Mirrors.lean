-- SUMMARY: The entries below a stem and a map of records say the same.
import IngestCoordinator.Proofs.Records
import IngestCoordinator.Proofs.SortedMap
import IngestCoordinator.Proofs.Store.Calls
import IngestCoordinator.Proofs.Store.Keys

/-!
# Mirrors

The entries below a stem mirror a map of records if they are the texts of the records,
each under the key of its number. Writing a record to both keeps them so, and what is
written elsewhere does not matter. Fetching what lies below the stem gives the map again.
-/

namespace IngestCoordinator

open Backend

/-- How records of one kind are numbered, and the text that they are stored as. -/
structure Format (kind : Kind) (α : Type) where
  number : α → Identifier kind
  toJson : α → Json
  read? : Json → Option α
  roundTrips : Json.RoundTrips read? toJson

def Collection.format : Format .collection Collection :=
  ⟨Collection.id, Collection.toJson, Collection.ofJson?, Collection.roundTrips⟩

def Segment.format : Format .segment Segment :=
  ⟨Segment.id, Segment.toJson, Segment.ofJson?, Segment.roundTrips⟩

/-! ## What is fetched -/

namespace Backend

variable {b : Backend} {α : Type} {read? : Json → Option α} {stem : String} {records : List α}

theorem mem_scanFilter_iff {key : String} {cell : Cell} :
    (key, cell) ∈ scanFilter stem b.entries.toList ↔
      b.entries.get? key = some cell ∧ startsWith stem key = true := by
  rw [scanFilter, List.mem_filter, SortedMap.mem_toList_iff]

theorem exists_right_of_forall₂ {β γ : Type} {R : β → γ → Prop} {xs : List β} {ys : List γ}
    (h : List.Forall₂ R xs ys) {x : β} (hx : x ∈ xs) : ∃ y ∈ ys, R x y := by
  induction h with
  | nil => cases hx
  | cons hfirst _ ih =>
    rcases List.mem_cons.1 hx with rfl | hx
    · exact ⟨_, List.mem_cons_self, hfirst⟩
    · obtain ⟨y, hy, hR⟩ := ih hx
      exact ⟨y, List.mem_cons_of_mem _ hy, hR⟩

theorem Fetched.exists_record (h : Fetched read? stem b records) {key : String} {cell : Cell}
    (hget : b.entries.get? key = some cell) (hstarts : startsWith stem key = true) :
    ∃ record ∈ records, Holds read? cell record :=
  exists_right_of_forall₂ h (mem_scanFilter_iff.2 ⟨hget, hstarts⟩)

theorem Fetched.exists_entry (h : Fetched read? stem b records) {record : α}
    (hrecord : record ∈ records) : ∃ key cell, b.entries.get? key = some cell ∧
      startsWith stem key = true ∧ Holds read? cell record := by
  obtain ⟨⟨key, cell⟩, hmem, hholds⟩ := exists_right_of_forall₂ h.flip hrecord
  obtain ⟨hget, hstarts⟩ := mem_scanFilter_iff.1 hmem
  exact ⟨key, cell, hget, hstarts, hholds⟩

end Backend

/-! ## Mirrors -/

namespace Format

variable {kind : Kind} {α : Type} {format : Format kind α} {stem : String} {b b' : Backend}
  {records : SortedMap (Identifier kind) α}

/-- What is stored for a record. -/
def cell (format : Format kind α) (record : α) : Cell :=
  .bytes (format.toJson record).write

theorem holds_cell (format : Format kind α) (record : α) :
    Holds format.read? (format.cell record) record :=
  ⟨_, rfl, format.roundTrips.decode record⟩

/-- The entries below a stem are the texts of the records, each under its own key. -/
structure Mirrors (format : Format kind α) (stem : String) (b : Backend)
    (records : SortedMap (Identifier kind) α) : Prop where
  numbered : ∀ {id record}, records.get? id = some record → format.number record = id
  stored : ∀ {id record}, records.get? id = some record →
    b.entries.get? (stem ++ toString id) = some (format.cell record)
  known : ∀ {key cell}, b.entries.get? key = some cell → startsWith stem key = true →
    ∃ id record, records.get? id = some record ∧ key = stem ++ toString id

/-- Where nothing lies below the stem, there are no records. -/
theorem mirrors_empty
    (h : ∀ key cell, b.entries.get? key = some cell → startsWith stem key = false) :
    format.Mirrors stem b .empty where
  numbered hget := by
    rw [SortedMap.get?_empty] at hget
    cases hget
  stored hget := by
    rw [SortedMap.get?_empty] at hget
    cases hget
  known hget hstarts := by
    rw [h _ _ hget] at hstarts
    cases hstarts

namespace Mirrors

theorem of_entries (h : format.Mirrors stem b records)
    (hentries : ∀ key, startsWith stem key = true → b'.entries.get? key = b.entries.get? key) :
    format.Mirrors stem b' records where
  numbered := h.numbered
  stored hget := by
    rw [hentries _ (Root.startsWith_append ..)]
    exact h.stored hget
  known hget hstarts := by
    rw [hentries _ hstarts] at hget
    exact h.known hget hstarts

/-- A record that is written to both sides takes the place of the one with its number. -/
theorem insert (h : format.Mirrors stem b records) {record : α}
    (hentries : b'.entries =
      b.entries.insert (stem ++ toString (format.number record)) (format.cell record)) :
    format.Mirrors stem b' (records.insert (format.number record) record) where
  numbered := by
    intro id record' hget
    rcases SortedMap.get?_insert_cases hget with ⟨rfl, rfl⟩ | ⟨-, hget⟩
    · rfl
    · exact h.numbered hget
  stored := by
    intro id record' hget
    rw [hentries]
    rcases SortedMap.get?_insert_cases hget with ⟨rfl, rfl⟩ | ⟨hne, hget⟩
    · exact SortedMap.get?_insert_self ..
    · have hkey : stem ++ toString id ≠ stem ++ toString (format.number record) := fun heq =>
        hne (Identifier.toString_injective ((String.append_right_inj _).1 heq))
      rw [SortedMap.get?_insert, if_neg hkey]
      exact h.stored hget
  known := by
    intro key cell hget hstarts
    rw [hentries] at hget
    rcases SortedMap.get?_insert_cases hget with ⟨hkey, -⟩ | ⟨hkey, hget⟩
    · exact ⟨format.number record, record, SortedMap.get?_insert_self .., hkey⟩
    · obtain ⟨id, old, hold, rfl⟩ := h.known hget hstarts
      have hid : id ≠ format.number record := by
        rintro rfl
        exact hkey rfl
      exact ⟨id, old, by rw [SortedMap.get?_insert, if_neg hid, hold], rfl⟩

theorem readable (h : format.Mirrors stem b records) {key : String} {cell : Cell}
    (hget : b.entries.get? key = some cell) (hstarts : startsWith stem key = true) :
    ∃ record, Holds format.read? cell record := by
  obtain ⟨id, record, hrecord, rfl⟩ := h.known hget hstarts
  cases hget.symm.trans (h.stored hrecord)
  exact ⟨record, format.holds_cell record⟩

/-- The record that an entry holds is the one of its key in the map. -/
theorem of_holds (h : format.Mirrors stem b records) {key : String} {cell : Cell} {record : α}
    (hget : b.entries.get? key = some cell) (hstarts : startsWith stem key = true)
    (hholds : Holds format.read? cell record) :
    key = stem ++ toString (format.number record) ∧
      records.get? (format.number record) = some record := by
  obtain ⟨id, record', hrecord, rfl⟩ := h.known hget hstarts
  cases hget.symm.trans (h.stored hrecord)
  obtain rfl := hholds.unique (format.holds_cell record')
  obtain rfl := h.numbered hrecord
  exact ⟨rfl, hrecord⟩

/-- What is fetched below the stem makes the map again. -/
theorem ofList_fetched (h : format.Mirrors stem b records) {found : List α}
    (hfetched : Fetched format.read? stem b found) :
    SortedMap.ofList (found.map fun record => (format.number record, record)) = records := by
  -- Each record is found once, since each lies under the key of its own number.
  have hkeys : found.map (fun record => stem ++ toString (format.number record)) =
      (scanFilter stem b.entries.toList).map (·.1) := by
    rw [← List.forall₂_eq_eq_eq, List.forall₂_map_left_iff, List.forall₂_map_right_iff]
    refine (List.forall₂_and_left _ _ |>.2 ⟨fun entry hmem => hmem, hfetched⟩).flip.imp ?_
    rintro record ⟨key, cell⟩ ⟨hmem, hholds⟩
    obtain ⟨hget, hstarts⟩ := mem_scanFilter_iff.1 hmem
    exact (h.of_holds hget hstarts hholds).1.symm
  have hnodup : (found.map format.number).Nodup := by
    have hdistinct := SortedMap.nodup_keys (b.entries.filter fun key _ => startsWith stem key)
    change ((scanFilter stem b.entries.toList).map (·.1)).Nodup at hdistinct
    rw [← hkeys] at hdistinct
    exact List.Nodup.of_map (fun id => stem ++ toString id)
      (by simpa [Function.comp_def] using hdistinct)
  refine SortedMap.ext_get? fun id => Option.ext fun record => ?_
  rw [SortedMap.get?_ofList (by simpa [Function.comp_def] using hnodup), List.mem_map]
  constructor
  · rintro ⟨record', hmem, heq⟩
    cases heq
    obtain ⟨key, cell, hget, hstarts, hholds⟩ := hfetched.exists_entry hmem
    exact (h.of_holds hget hstarts hholds).2
  · intro hrecord
    obtain ⟨record', hmem, hholds⟩ := hfetched.exists_record (h.stored hrecord)
      (Root.startsWith_append ..)
    obtain rfl := hholds.unique (format.holds_cell record)
    exact ⟨record', hmem, by rw [h.numbered hrecord]⟩

end Mirrors

end Format

end IngestCoordinator
