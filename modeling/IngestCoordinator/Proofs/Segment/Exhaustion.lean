-- SUMMARY: Recording is safe in every ledger, until it records the only number that is missing.
import IngestCoordinator.Proofs.Records
import IngestCoordinator.Proofs.Segment.Ledger

/-!
# Ledgers that are used up

A ledger that has been read back need not be tidy: its sparse set may reach below the mark,
or right up to it. Collapsing asks for the number after the mark, and so there is one mark
that it cannot deal with, the largest word. It gets there exactly if every word has been
applied, and so only when the last one that is missing is recorded.
-/

namespace IngestCoordinator.Ledger

/--
In every ledger, tidy or not, recording a number overflows exactly if it is not contained and
all other words are. If it does not overflow, the number was new exactly if it was not
contained, the mark has not moved down, and the number is contained besides what was before.
-/
theorem record_safe_unless_last_missing (ledger : Ledger) (seq : UInt64) :
    (ledger.record? seq = none ↔
      ledger.contains seq = false ∧ ∀ other, other ≠ seq → ledger.contains other = true) ∧
    (∀ isNew after, ledger.record? seq = some (isNew, after) →
      isNew = !ledger.contains seq ∧
      ledger.through ≤ after.through ∧
      ∀ other, after.contains other = true ↔ ledger.contains other = true ∨ other = seq) := by
  refine ⟨record?_eq_none_iff, fun isNew after hrecord => ?_⟩
  have hrecords := records hrecord
  exact ⟨hrecords.isNew, hrecords.through, hrecords.contains⟩

/-- A ledger that is not tidy: 3 lies below the mark, and 6 and 8 wait for the mark and for 7. -/
theorem record_safe_in_untidy_ledger :
    ∃ after, record? { through := 5, above := .ofElems [3, 6, 8] } 7 = some (true, after) ∧
      5 ≤ after.through ∧ after.contains 7 = true ∧ after.contains 8 = true ∧
      after.contains 9 = false := by
  obtain ⟨hoverflow, hsafe⟩ :=
    record_safe_unless_last_missing { through := 5, above := .ofElems [3, 6, 8] } 7
  cases hrecord : record? { through := 5, above := .ofElems [3, 6, 8] } 7 with
  | none => exact absurd ((hoverflow.1 hrecord).2 9 (by decide)) (by decide)
  | some recorded =>
    obtain ⟨isNew, after⟩ := recorded
    obtain ⟨hnew, hle, hcontains⟩ := hsafe isNew after hrecord
    cases hnew.trans (by decide : _ = true)
    refine ⟨after, rfl, hle, (hcontains 7).2 (.inr rfl), (hcontains 8).2 (.inl (by decide)), ?_⟩
    rw [Bool.eq_false_iff, ne_eq, hcontains]
    decide

/--
A ledger can be read back in which the largest word alone is missing, and 0 is in the sparse
set. Recording that word overflows.
-/
theorem last_missing_overflows :
    ∃ ledger : Ledger, Ledger.ofJson? ledger.toJson = some ledger ∧
      ledger.through = 0xFFFFFFFFFFFFFFFE ∧ ledger.above.elems = [0] ∧
      ledger.contains 0xFFFFFFFFFFFFFFFF = false ∧ ledger.record? 0xFFFFFFFFFFFFFFFF = none := by
  refine ⟨{ through := 0xFFFFFFFFFFFFFFFE, above := .ofElems [0] }, Ledger.roundTrips.read _, rfl,
    rfl, by decide, by decide +kernel⟩

end IngestCoordinator.Ledger
