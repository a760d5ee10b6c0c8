-- SUMMARY: Keys of different records differ, and records of different kinds have different beginnings.
import IngestCoordinator.Store.Backend
import IngestCoordinator.Store.Keys
import Mathlib

/-!
# Keys apart

A write under the key of one record must not touch another. Keys of one kind end
in a number that is written in one way only, and no key starts both like a
collection's and like a segment's.
-/

namespace IngestCoordinator

theorem Identifier.toString_injective {kind : Kind} {a b : Identifier kind}
    (h : toString a = toString b) : a = b := by
  obtain ⟨a⟩ := a
  obtain ⟨b⟩ := b
  have hint : a.toInt = b.toInt := Int.repr_injective h
  rw [Int64.toInt_inj.1 hint]

namespace Root

variable {root : Root}

theorem segment_injective {a b : SegmentId} (h : root.segment a = root.segment b) : a = b :=
  Identifier.toString_injective ((String.append_right_inj _).1 h)

theorem segment_inj {a b : SegmentId} : root.segment a = root.segment b ↔ a = b :=
  ⟨segment_injective, congrArg _⟩

theorem startsWith_append (stem rest : String) : Backend.startsWith stem (stem ++ rest) = true := by
  simp [Backend.startsWith]

theorem startsWith_segment (root : Root) (id : SegmentId) :
    Backend.startsWith root.segments (root.segment id) = true :=
  startsWith_append ..

theorem startsWith_collection (root : Root) (id : CollectionId) :
    Backend.startsWith root.collections (root.collection id) = true :=
  startsWith_append ..

/-- The beginnings of the two kinds of keys differ in the letter behind the slash. -/
theorem not_startsWith_both {key : String} (hsegment : Backend.startsWith root.segments key = true) :
    Backend.startsWith root.collections key = false := by
  rw [Bool.eq_false_iff]
  intro hcollection
  rw [Backend.startsWith, List.isPrefixOf_iff_prefix] at hsegment hcollection
  obtain ⟨_, hsegment⟩ := hsegment
  obtain ⟨_, hcollection⟩ := hcollection
  rw [← hcollection] at hsegment
  simp [segments, collections] at hsegment

theorem collection_ne_of_startsWith {key : String} {id : CollectionId}
    (h : Backend.startsWith root.segments key = true) : key ≠ root.collection id := by
  rintro rfl
  have hfalse := not_startsWith_both h
  rw [startsWith_collection] at hfalse
  cases hfalse

theorem segment_ne_of_startsWith {key : String} {id : SegmentId}
    (h : Backend.startsWith root.collections key = true) : key ≠ root.segment id := by
  rintro rfl
  rw [not_startsWith_both (startsWith_segment root id)] at h
  cases h

theorem nextId_ne_window (root : Root) : root.nextId ≠ root.window := by
  simp [nextId, window]

/-- No record lies under the key of a counter. -/
theorem not_counter_of_startsWith {key : String}
    (h : Backend.startsWith root.collections key = true ∨
      Backend.startsWith root.segments key = true) : key ≠ root.nextId ∧ key ≠ root.window := by
  simp only [Backend.startsWith, List.isPrefixOf_iff_prefix] at h
  constructor
  · rintro rfl
    rcases h with ⟨_, h⟩ | ⟨_, h⟩
    · simp [collections, nextId] at h
    · simp [segments, nextId] at h
  · rintro rfl
    rcases h with ⟨_, h⟩ | ⟨_, h⟩
    · simp [collections, window] at h
    · simp [segments, window] at h

end Root

end IngestCoordinator
