-- SUMMARY: The ledger of applied statistics reports.
import IngestCoordinator.Json.Record
import IngestCoordinator.SortedMap

/-!
# Report ledgers

Reports on a segment carry sequence numbers from 1 up and may arrive in any order
and more than once. The ledger remembers which were applied: everything up to a
mark, and a sparse set past it that collapses into the mark as gaps fill. To collapse is
to ask for the number after the mark. The largest word has none, and so recording has no
result when the mark gets there.
-/

namespace IngestCoordinator

/-- Which reports have been applied to a segment. -/
structure Ledger where
  /-- All sequence numbers up to this one have been applied. -/
  through : UInt64 := 0
  /-- The applied sequence numbers past the mark. -/
  above : SortedSet UInt64 := .empty
  /-- The sequence number of the report that the current memory size is from. -/
  sizeSeq : UInt64 := 0
  deriving DecidableEq, Repr

namespace Ledger

/-- Whether a sequence number has been applied. -/
def contains (ledger : Ledger) (seq : UInt64) : Bool :=
  seq ≤ ledger.through || ledger.above.contains seq

theorem length_erase_lt {above : SortedSet UInt64} {seq : UInt64} (h : above.contains seq) :
    (above.erase seq).size < above.size := by
  obtain ⟨⟨⟩, hv⟩ := Option.isSome_iff_exists.1 h
  have hm := SortedMap.mem_toList_iff.2 hv
  unfold SortedMap.erase SortedMap.filter SortedMap.size
  apply Nat.lt_of_le_of_ne (List.length_filter_le ..)
  intro heq
  have := List.length_filter_eq_length_iff.1 heq _ hm
  simp at this

/--
Moves the mark up while the next sequence number is in the sparse set. `none` if it gets to
the largest word: the next number overflows.
-/
def collapse? (ledger : Ledger) : Option Ledger :=
  if ledger.through = 0xFFFFFFFFFFFFFFFF then none
  else if ledger.above.contains (ledger.through + 1) then
    collapse? { ledger with
      through := ledger.through + 1
      above := ledger.above.erase (ledger.through + 1) }
  else some ledger
termination_by ledger.above.size
decreasing_by exact length_erase_lt ‹_›

/-- Marks a sequence number applied; says whether it was not before. `none` on overflow. -/
def record? (ledger : Ledger) (seq : UInt64) : Option (Bool × Ledger) :=
  if ledger.contains seq then some (false, ledger)
  else ({ ledger with above := ledger.above.add seq }.collapse?).map (true, ·)

/-! ## Records -/

def toJson (ledger : Ledger) : Json :=
  .record [
    ("applied_through", .ofNat ledger.through.toNat),
    ("applied_above", .ofList (fun seq => .ofNat seq.toNat) ledger.above.elems),
    ("size_seq", .ofNat ledger.sizeSeq.toNat)]

def ofJson? (value : Json) : Option Ledger := do
  let fields ← Json.Fields.ofJson? ["applied_through", "applied_above", "size_seq"] value
  return {
    through := ← fields.required "applied_through" Json.uint64?
    above := ← fields.defaulted "applied_above" .empty fun value =>
      (value.list? Json.uint64?).map SortedSet.ofElems
    sizeSeq := ← fields.defaulted "size_seq" 0 Json.uint64? }

end Ledger

end IngestCoordinator
