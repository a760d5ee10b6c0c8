-- SUMMARY: A ledger depends on the set of the sequence numbers recorded in it, and on nothing else.
import IngestCoordinator.Proofs.SortedMap
import IngestCoordinator.Proofs.Words
import IngestCoordinator.Segment.Ledger
import Mathlib.Data.Finset.Insert
import Mathlib.Order.Bounds.Defs

/-!
# Ledgers

However gaps open and fill, a ledger is tidy: everything in its sparse set lies past
the mark, and there is a number that follows the mark, which is not in it. A tidy ledger is
determined by what it contains and by the number of its size. So one in which reports
were recorded one by one, in any order, is the one in which all of them are put at once.
There is no such ledger only if every word has been recorded.
-/

namespace IngestCoordinator

namespace SortedSet

variable {κ : Type} [Ord κ] [Std.LawfulEqOrd κ] [Std.TransOrd κ] [DecidableEq κ]

instance leftCommutative_add : LeftCommutative fun (k : κ) (s : SortedSet κ) => s.add k where
  left_comm a b s := by
    refine ext_contains fun k => ?_
    simp only [contains_add]
    exact Bool.or_left_comm ..

/-- The sorted set of a finite set. -/
def ofFinset (elems : Finset κ) : SortedSet κ :=
  elems.val.foldr (fun k s => s.add k) .empty

theorem contains_ofFinset {elems : Finset κ} {k : κ} :
    (ofFinset elems).contains k = true ↔ k ∈ elems := by
  unfold ofFinset
  rw [← Finset.mem_val]
  induction elems.val using Multiset.induction_on with
  | empty => exact ⟨(fun h => nomatch h), fun h => absurd h (Multiset.notMem_zero k)⟩
  | cons first rest ih =>
    rw [Multiset.foldr_cons, contains_add, Bool.or_eq_true, decide_eq_true_iff, ih,
      Multiset.mem_cons]

end SortedSet

namespace Ledger

variable {ledger a b : Ledger} {seqs : Finset UInt64} {seq seq' other bound : UInt64} {isNew : Bool}

/-- What has been recorded past the mark lies past it. -/
def Sparse (ledger : Ledger) : Prop :=
  ∀ seq, ledger.above.contains seq = true → ledger.through < seq

/-- The sparse set lies past the mark, and the mark cannot move up: its next number is missing. -/
structure Tidy (ledger : Ledger) : Prop where
  sparse : ledger.Sparse
  unfinished : ledger.through ≠ 0xFFFFFFFFFFFFFFFF
  collapsed : ledger.above.contains (ledger.through + 1) = false

theorem contains_iff : ledger.contains seq = true ↔
    seq ≤ ledger.through ∨ ledger.above.contains seq = true := by
  simp [contains]

theorem tidy_empty : Tidy {} :=
  ⟨(fun _ h => nomatch h), by decide, rfl⟩

/-! ## Collapsing -/

/-- The mark moves up by one, and the number that it reaches leaves the sparse set. -/
def next (ledger : Ledger) : Ledger :=
  { ledger with
    through := ledger.through + 1
    above := ledger.above.erase (ledger.through + 1) }

theorem Sparse.next (h : ledger.Sparse)
    (hnext : ledger.above.contains (ledger.through + 1) = true) : ledger.next.Sparse := by
  intro seq hseq
  rw [Ledger.next, SortedSet.contains_erase, Bool.and_eq_true, decide_eq_true_iff] at hseq
  refine UInt64.not_le.1 fun hle => ?_
  rcases (Word.le_succ_iff (h _ hnext)).1 hle with hle | heq
  · exact UInt64.not_le.2 (h seq hseq.2) hle
  · exact hseq.1 heq

/-- Moving the mark up loses nothing, whatever the sparse set holds. -/
theorem contains_next (hlast : ledger.through ≠ 0xFFFFFFFFFFFFFFFF)
    (hnext : ledger.above.contains (ledger.through + 1) = true) (seq : UInt64) :
    ledger.next.contains seq = ledger.contains seq := by
  rw [Bool.eq_iff_iff, contains_iff, contains_iff, Ledger.next, SortedSet.contains_erase,
    Bool.and_eq_true, decide_eq_true_iff, Word.le_succ_iff (Word.lt_succ_of_ne hlast)]
  by_cases heq : seq = ledger.through + 1
  · simp [heq, hnext]
  · simp [heq]

/-- What collapsing makes of a ledger, which need not be tidy before. -/
structure Collapses (ledger b : Ledger) : Prop where
  through : ledger.through ≤ b.through
  contains : ∀ seq, b.contains seq = ledger.contains seq
  sizeSeq : b.sizeSeq = ledger.sizeSeq
  tidy : ledger.Sparse → b.Tidy

theorem collapses (h : ledger.collapse? = some b) : ledger.Collapses b := by
  fun_induction collapse? ledger with
  | case1 ledger hlast => cases h
  | case2 ledger hlast hnext ih =>
    have hlt := Word.lt_succ_of_ne hlast
    obtain ⟨hthrough, hcontains, hsize, htidy⟩ := ih h
    exact ⟨UInt64.le_trans (UInt64.le_of_lt hlt) hthrough,
      fun seq => (hcontains seq).trans (contains_next hlast hnext seq), hsize,
      fun hsparse => htidy (hsparse.next hnext)⟩
  | case3 ledger hlast hnext =>
    cases h
    exact ⟨UInt64.le_refl _, fun _ => rfl, rfl,
      fun hsparse => ⟨hsparse, hlast, Bool.eq_false_iff.2 hnext⟩⟩

/-- Collapsing overflows exactly if there is no word that the ledger does not contain. -/
theorem collapse?_eq_none_iff :
    ledger.collapse? = none ↔ ∀ seq, ledger.contains seq = true := by
  fun_induction collapse? ledger with
  | case1 ledger hlast =>
    exact iff_of_true rfl fun seq => contains_iff.2 (.inl (hlast ▸ Word.le_last seq))
  | case2 ledger hlast hnext ih =>
    exact ih.trans (forall_congr' fun seq => by rw [← contains_next hlast hnext seq]; rfl)
  | case3 ledger hlast hnext =>
    refine iff_of_false (fun h => nomatch h) fun hall => ?_
    rcases contains_iff.1 (hall (ledger.through + 1)) with hle | habove
    · exact UInt64.not_le.2 (Word.lt_succ_of_ne hlast) hle
    · exact hnext habove

/-! ## What determines a ledger -/

theorem Sparse.contains_above (h : ledger.Sparse) : ledger.above.contains seq = true ↔
    ledger.through < seq ∧ ledger.contains seq = true := by
  rw [contains_iff]
  refine ⟨fun habove => ⟨h seq habove, .inr habove⟩, fun ⟨hlt, hin⟩ => hin.resolve_left ?_⟩
  exact UInt64.not_le.2 hlt

/-- The number that follows the mark is missing. -/
theorem Tidy.contains_succ (h : ledger.Tidy) : ledger.contains (ledger.through + 1) = false := by
  refine Bool.eq_false_iff.2 fun hin => ?_
  have habove := h.sparse.contains_above.2 ⟨Word.lt_succ_of_ne h.unfinished, hin⟩
  cases h.collapsed.symm.trans habove

/-- Of two ledgers that contain the same, neither has its mark past that of the other. -/
theorem Tidy.through_le (h : a.Tidy) (hcontains : ∀ seq, b.contains seq = a.contains seq) :
    b.through ≤ a.through := by
  refine UInt64.not_lt.1 fun hlt => ?_
  have hnext : b.contains (a.through + 1) = true := contains_iff.2 (.inl (Word.succ_le_of_lt hlt))
  cases h.contains_succ.symm.trans ((hcontains _).symm.trans hnext)

theorem Tidy.ext (h : a.Tidy) (h' : b.Tidy) (hcontains : ∀ seq, a.contains seq = b.contains seq)
    (hsize : a.sizeSeq = b.sizeSeq) : a = b := by
  have hthrough : a.through = b.through :=
    UInt64.le_antisymm (h'.through_le hcontains) (h.through_le fun seq => (hcontains seq).symm)
  have habove : a.above = b.above := by
    refine SortedSet.ext_contains fun seq => ?_
    rw [Bool.eq_iff_iff, h.sparse.contains_above, h'.sparse.contains_above, hthrough, hcontains]
  obtain ⟨through, above, sizeSeq⟩ := a
  obtain ⟨through', above', sizeSeq'⟩ := b
  cases hthrough
  cases habove
  cases hsize
  rfl

/-! ## Recording -/

/-- With one more number in its sparse set, a ledger contains that number besides. -/
theorem contains_add : Ledger.contains { ledger with above := ledger.above.add seq } seq' = true ↔
    ledger.contains seq' = true ∨ seq' = seq := by
  rw [contains_iff, contains_iff, SortedSet.contains_add, Bool.or_eq_true, decide_eq_true_iff,
    or_assoc]
  exact or_congr_right or_comm

/-- A number that has not been applied lies past the mark. -/
theorem Tidy.sparse_add (h : ledger.Tidy) (hout : ledger.contains seq = false) :
    Sparse { ledger with above := ledger.above.add seq } := by
  intro seq' hseq'
  rw [SortedSet.contains_add, Bool.or_eq_true, decide_eq_true_iff] at hseq'
  rcases hseq' with rfl | hseq'
  · refine UInt64.not_le.1 fun hle => ?_
    cases hout.symm.trans (contains_iff.2 (.inl hle))
  · exact h.sparse seq' hseq'

/-- What recording a number in a ledger comes to, which need not be tidy before. -/
structure Records (ledger : Ledger) (seq : UInt64) (isNew : Bool) (b : Ledger) : Prop where
  isNew : isNew = !ledger.contains seq
  through : ledger.through ≤ b.through
  contains : ∀ other, b.contains other = true ↔ ledger.contains other = true ∨ other = seq
  sizeSeq : b.sizeSeq = ledger.sizeSeq
  tidy : ledger.Tidy → b.Tidy

theorem records (h : ledger.record? seq = some (isNew, b)) : ledger.Records seq isNew b := by
  unfold record? at h
  split at h
  · rename_i hin
    cases h
    refine ⟨by rw [hin]; rfl, UInt64.le_refl _, fun other => ⟨.inl, ?_⟩, rfl, id⟩
    exact fun hor => hor.elim id fun heq => heq ▸ hin
  · rename_i hin
    have hout := Bool.eq_false_iff.2 hin
    obtain ⟨collapsed, hcollapse, heq⟩ := Option.map_eq_some_iff.1 h
    cases heq
    obtain ⟨hthrough, hcontains, hsize, htidy⟩ := collapses hcollapse
    exact ⟨by rw [hout]; rfl, hthrough, fun other => by rw [hcontains, contains_add], hsize,
      fun h => htidy (h.sparse_add hout)⟩

/-- Recording a number overflows exactly if it is the only one that is missing. -/
theorem record?_eq_none_iff : ledger.record? seq = none ↔
    ledger.contains seq = false ∧ ∀ other, other ≠ seq → ledger.contains other = true := by
  unfold record?
  split
  · rename_i hin
    exact iff_of_false (fun h => nomatch h) fun h => nomatch h.1.symm.trans hin
  · rename_i hin
    rw [Option.map_eq_none_iff, collapse?_eq_none_iff, and_iff_right (Bool.eq_false_iff.2 hin)]
    refine forall_congr' fun other => ?_
    rw [contains_add, or_comm, or_iff_not_imp_left]

theorem exists_record? (hother : other ≠ seq) (hout : ledger.contains other = false) :
    ∃ isNew b, ledger.record? seq = some (isNew, b) := by
  cases hrecord : ledger.record? seq with
  | none => cases hout.symm.trans ((record?_eq_none_iff.1 hrecord).2 other hother)
  | some recorded => exact ⟨recorded.1, recorded.2, rfl⟩

/-! ## The ledger of a set -/

/-- The largest number in a set, or 0 if there is none. -/
def highest (seqs : Finset UInt64) : UInt64 :=
  (SortedSet.ofFinset seqs).elems.max?.getD 0

theorem highest_eq_iff : highest seqs = bound ↔
    (∀ seq ∈ seqs, seq ≤ bound) ∧ (seqs = ∅ ∧ bound = 0 ∨ bound ∈ seqs) := by
  have hin {seq : UInt64} : seq ∈ (SortedSet.ofFinset seqs).elems ↔ seq ∈ seqs :=
    SortedSet.mem_elems_iff.trans SortedSet.contains_ofFinset
  rw [highest]
  cases hmax : (SortedSet.ofFinset seqs).elems.max? with
  | none =>
    have hempty : seqs = ∅ := by
      rw [List.max?_eq_none_iff] at hmax
      refine Finset.eq_empty_of_forall_notMem fun seq hseq => ?_
      rw [← hin, hmax] at hseq
      cases hseq
    simp [hempty, eq_comm]
  | some largest =>
    obtain ⟨hlargest, hall⟩ := List.max?_eq_some_iff.1 hmax
    rw [hin] at hlargest
    have hbound : ∀ seq ∈ seqs, seq ≤ largest := fun seq hseq => hall seq (hin.2 hseq)
    refine ⟨fun heq => heq ▸ ⟨hbound, .inr hlargest⟩, fun ⟨hle, hmem⟩ => ?_⟩
    have hmem := hmem.resolve_left fun hempty => Finset.ne_empty_of_mem hlargest hempty.1
    exact UInt64.le_antisymm (hle _ hlargest) (hbound _ hmem)

theorem highest_insert : highest (insert seq seqs) = max (highest seqs) seq := by
  obtain ⟨hbound, hmem⟩ := highest_eq_iff.1 (Eq.refl (highest seqs))
  refine highest_eq_iff.2 ⟨fun seq' hseq' => ?_, .inr ?_⟩
  · rcases Finset.mem_insert.1 hseq' with rfl | hseq'
    · exact Word.le_max_right ..
    · exact UInt64.le_trans (hbound seq' hseq') (Word.le_max_left ..)
  · rcases hmem with ⟨_, hnone⟩ | hmem
    · rw [hnone, Word.max_eq_right UInt64.zero_le]
      exact Finset.mem_insert_self ..
    · rcases Std.MaxEqOr.max_eq_or (highest seqs) seq with heq | heq
      · rw [heq]
        exact Finset.mem_insert_of_mem hmem
      · rw [heq]
        exact Finset.mem_insert_self ..

/--
The ledger in which a set of sequence numbers, from 1 up, has been recorded. `none` if they
are all the words there are.
-/
def ofSeqs? (seqs : Finset UInt64) : Option Ledger :=
  collapse? { above := .ofFinset seqs, sizeSeq := highest seqs }

/-- It is the tidy ledger that contains them, and 0. -/
theorem ofSeqs?_eq_some_iff (hzero : 0 ∉ seqs) : ofSeqs? seqs = some ledger ↔
    ledger.Tidy ∧ (∀ seq, ledger.contains seq = true ↔ seq = 0 ∨ seq ∈ seqs) ∧
      ledger.sizeSeq = highest seqs := by
  have hsparse : Sparse { above := .ofFinset seqs, sizeSeq := highest seqs } := by
    intro seq hseq
    rw [SortedSet.contains_ofFinset] at hseq
    exact UInt64.pos_iff_ne_zero.2 fun heq => hzero (heq ▸ hseq)
  have hcontains (seq : UInt64) : Ledger.contains { above := .ofFinset seqs, sizeSeq := highest seqs }
      seq = true ↔ seq = 0 ∨ seq ∈ seqs := by
    rw [contains_iff, SortedSet.contains_ofFinset, UInt64.le_zero_iff]
  constructor
  · intro h
    have hcollapses := collapses h
    exact ⟨hcollapses.tidy hsparse, fun seq => by rw [hcollapses.contains, hcontains],
      hcollapses.sizeSeq⟩
  · intro ⟨htidy, hsame, hsize⟩
    cases hcollapse : ofSeqs? seqs with
    | none =>
      have hall := (hcontains _).1 (collapse?_eq_none_iff.1 hcollapse (ledger.through + 1))
      cases htidy.contains_succ.symm.trans ((hsame _).2 hall)
    | some collapsed =>
      have hcollapses := collapses hcollapse
      refine congrArg some ((hcollapses.tidy hsparse).ext htidy (fun seq => ?_) ?_)
      · rw [Bool.eq_iff_iff, hcollapses.contains, hcontains, hsame]
      · exact hcollapses.sizeSeq.trans hsize.symm

theorem ofSeqs?_empty : ofSeqs? ∅ = some {} := by
  refine (ofSeqs?_eq_some_iff (Finset.notMem_empty 0)).2 ⟨tidy_empty, fun seq => ?_, rfl⟩
  rw [contains_iff, UInt64.le_zero_iff]
  exact or_congr_right ⟨(fun h => nomatch h), fun h => absurd h (Finset.notMem_empty seq)⟩

/-- To record one more number is to start with a larger set. -/
theorem ofSeqs?_insert (hzero : 0 ∉ insert seq seqs) (h : ofSeqs? seqs = some ledger)
    (hrecord : ledger.record? seq = some (isNew, b)) :
    ofSeqs? (insert seq seqs) = some { b with sizeSeq := max ledger.sizeSeq seq } := by
  have hzero' : 0 ∉ seqs := fun hmem => hzero (Finset.mem_insert_of_mem hmem)
  obtain ⟨htidy, hcontains, hsize⟩ := (ofSeqs?_eq_some_iff hzero').1 h
  have hrecords := records hrecord
  obtain ⟨hsparse, hunfinished, hcollapsed⟩ := hrecords.tidy htidy
  refine (ofSeqs?_eq_some_iff hzero).2 ⟨⟨hsparse, hunfinished, hcollapsed⟩, fun other => ?_, ?_⟩
  · refine (hrecords.contains other).trans ?_
    rw [hcontains, Finset.mem_insert, or_assoc]
    exact or_congr_right or_comm
  · rw [highest_insert, ← hsize]

/-! ## Recording one by one -/

section

variable {numbers : List UInt64}

/-- The ledger in which numbers have been recorded one by one. -/
def recordAll? (numbers : List UInt64) : Option Ledger :=
  numbers.foldlM (fun ledger seq => (ledger.record? seq).map Prod.snd) {}

/-- A ledger that holds some numbers, and 0: what recording them one by one leaves. -/
structure Holds (numbers : List UInt64) (ledger : Ledger) : Prop where
  tidy : ledger.Tidy
  contains : ∀ seq, ledger.contains seq = true ↔ seq = 0 ∨ seq ∈ numbers
  sizeSeq : ledger.sizeSeq = 0

theorem holds_nil : Holds [] {} := by
  refine ⟨tidy_empty, fun seq => ?_, rfl⟩
  rw [contains_iff, UInt64.le_zero_iff]
  exact or_congr_right ⟨(fun h => nomatch h), fun h => nomatch h⟩

theorem Holds.record (h : Holds numbers ledger) (hrecord : ledger.record? seq = some (isNew, b)) :
    Holds (numbers ++ [seq]) b := by
  have hrecords := records hrecord
  refine ⟨hrecords.tidy h.tidy, fun other => ?_, hrecords.sizeSeq.trans h.sizeSeq⟩
  rw [hrecords.contains, h.contains, List.mem_append, List.mem_singleton, or_assoc]

theorem Holds.isNew_iff (h : Holds numbers ledger)
    (hrecord : ledger.record? seq = some (isNew, b)) : isNew = true ↔ 1 ≤ seq ∧ seq ∉ numbers := by
  rw [(records hrecord).isNew, Bool.not_eq_true', ← Bool.not_eq_true, h.contains, not_or,
    Word.one_le_iff]

/-- If the largest word is missing, any number below it can be recorded. -/
theorem Holds.exists_record? (h : Holds numbers ledger)
    (hbound : ∀ other ∈ numbers, other < 0xFFFFFFFFFFFFFFFF) (hlt : seq < 0xFFFFFFFFFFFFFFFF) :
    ∃ isNew b, ledger.record? seq = some (isNew, b) := by
  refine Ledger.exists_record? (UInt64.ne_of_lt hlt).symm (Bool.eq_false_iff.2 fun hin => ?_)
  rcases (h.contains _).1 hin with hzero | hmem
  · cases hzero
  · exact UInt64.lt_irrefl _ (hbound _ hmem)

/-- Numbers determine the ledger that holds them, whatever their order. -/
theorem Holds.unique {numbers' : List UInt64} (h : Holds numbers a) (h' : Holds numbers' b)
    (hset : ∀ seq, seq ∈ numbers' ↔ seq ∈ numbers) : b = a := by
  refine h'.tidy.ext h.tidy (fun seq => ?_) (h'.sizeSeq.trans h.sizeSeq.symm)
  rw [Bool.eq_iff_iff, h'.contains, h.contains, hset]

/-- As long as the largest word is not among them, numbers can be recorded. -/
theorem exists_recordAll? (hbound : ∀ seq ∈ numbers, seq < 0xFFFFFFFFFFFFFFFF) :
    ∃ ledger, recordAll? numbers = some ledger ∧ Holds numbers ledger := by
  induction numbers using List.reverseRecOn with
  | nil => exact ⟨{}, rfl, holds_nil⟩
  | append_singleton numbers seq ih =>
    obtain ⟨hbefore, hlast⟩ := List.forall_mem_append.1 hbound
    obtain ⟨ledger, hledger, hholds⟩ := ih hbefore
    obtain ⟨isNew, b, hrecord⟩ :=
      hholds.exists_record? hbefore (hlast seq (List.mem_singleton_self seq))
    refine ⟨b, ?_, hholds.record hrecord⟩
    rw [recordAll?] at hledger ⊢
    simp [List.foldlM_append, hledger, hrecord]

/-- The mark of a tidy ledger is the largest number that it contains all smaller ones of. -/
theorem Tidy.isGreatest_through (h : ledger.Tidy) :
    IsGreatest {bound | ∀ seq, 1 ≤ seq → seq ≤ bound → ledger.contains seq = true}
      ledger.through := by
  constructor
  · exact fun seq _ hle => contains_iff.2 (.inl hle)
  · -- A larger one would have the number that follows the mark below it, which is missing.
    intro bound hall
    refine UInt64.not_lt.1 fun hlt => ?_
    have hnext := Word.lt_succ_of_lt hlt
    have hpos : 1 ≤ ledger.through + 1 :=
      Word.succ_le_of_lt (UInt64.lt_of_le_of_lt UInt64.zero_le hnext)
    cases h.contains_succ.symm.trans (hall _ hpos (Word.succ_le_of_lt hlt))

/--
Whatever numbers below the largest word are recorded, in whatever order and however often,
none of them overflows. Each is applied once, unless it is 0; the mark is the largest number
up to which all have been recorded, and the sparse set holds those past it. So the ledger
depends on the set of the numbers alone.
-/
theorem ledger_of_recorded (hbound : ∀ seq ∈ numbers, seq < 0xFFFFFFFFFFFFFFFF) :
    ∃ ledger, recordAll? numbers = some ledger ∧
      (∀ before seq after, numbers = before ++ seq :: after → ∃ earlier isNew later,
        recordAll? before = some earlier ∧ earlier.record? seq = some (isNew, later) ∧
          (isNew = true ↔ 1 ≤ seq ∧ seq ∉ before)) ∧
      (∀ seq, ledger.contains seq = true ↔ seq = 0 ∨ seq ∈ numbers) ∧
      IsGreatest {bound | ∀ seq, 1 ≤ seq → seq ≤ bound → seq ∈ numbers} ledger.through ∧
      (∀ seq, seq ∈ ledger.above.elems ↔ seq ∈ numbers ∧ ledger.through < seq) ∧
      (∀ numbers', (∀ seq, seq ∈ numbers' ↔ seq ∈ numbers) → recordAll? numbers' = some ledger) ∧
      ledger.through < 0xFFFFFFFFFFFFFFFF := by
  obtain ⟨ledger, hledger, hholds⟩ := exists_recordAll? hbound
  refine ⟨ledger, hledger, fun before seq after hsplit => ?_, hholds.contains, ?_, fun seq => ?_,
    fun numbers' hset => ?_, ?_⟩
  · subst hsplit
    obtain ⟨hbefore, hrest⟩ := List.forall_mem_append.1 hbound
    obtain ⟨earlier, hearlier, hheld⟩ := exists_recordAll? hbefore
    obtain ⟨isNew, later, hrecord⟩ := hheld.exists_record? hbefore (hrest seq (List.mem_cons_self ..))
    exact ⟨earlier, isNew, later, hearlier, hrecord, hheld.isNew_iff hrecord⟩
  · simpa +contextual only [hholds.contains, Word.one_le_iff, false_or] using
      hholds.tidy.isGreatest_through
  · rw [SortedSet.mem_elems_iff, hholds.tidy.sparse.contains_above, hholds.contains]
    refine ⟨fun ⟨hlt, hin⟩ => ⟨hin.resolve_left fun hzero => ?_, hlt⟩,
      fun ⟨hin, hlt⟩ => ⟨hlt, .inr hin⟩⟩
    exact UInt64.not_lt.2 UInt64.zero_le (hzero ▸ hlt)
  · have hbound' : ∀ seq ∈ numbers', seq < 0xFFFFFFFFFFFFFFFF :=
      fun seq hseq => hbound seq ((hset seq).1 hseq)
    obtain ⟨other, hother, hholds'⟩ := exists_recordAll? hbound'
    rw [hother, hholds.unique hholds' hset]
  · exact UInt64.lt_of_le_of_ne (Word.le_last _) hholds.tidy.unfinished

/-- The gap at 2 is filled late and the one at 4 never: the mark stops at 3, and 5 lies past it. -/
theorem gaps_fill_in_any_order :
    ∃ ledger, recordAll? [3, 1, 5, 3, 2, 0] = some ledger ∧ ledger.through = 3 ∧
      (∀ seq, seq ∈ ledger.above.elems ↔ seq = 5) ∧
      (∃ earlier later, recordAll? [3, 1, 5] = some earlier ∧
        earlier.record? 3 = some (false, later)) ∧
      (∃ earlier later, recordAll? [3, 1, 5, 3] = some earlier ∧
        earlier.record? 2 = some (true, later)) ∧
      recordAll? [0, 1, 2, 3, 5] = some ledger := by
  obtain ⟨ledger, hledger, hanswers, -, ⟨hall, hgreatest⟩, habove, hsame, -⟩ :=
    @ledger_of_recorded [3, 1, 5, 3, 2, 0] (by simp)
  have hthrough : ledger.through = 3 := by
    refine UInt64.le_antisymm (UInt64.not_lt.1 fun hlt => ?_) (hgreatest fun seq hpos hle => ?_)
    · exact absurd (hall 4 (by decide) (Word.succ_le_of_lt hlt)) (by decide)
    · simp only [UInt64.le_iff_toNat_le, UInt64.reduceToNat] at hpos hle
      simp only [List.mem_cons, List.not_mem_nil, or_false, ← UInt64.toNat_inj, UInt64.reduceToNat]
      omega
  refine ⟨ledger, hledger, hthrough, fun seq => ?_, ?_, ?_, hsame _ fun seq => ?_⟩
  · rw [habove, hthrough]
    simp only [List.mem_cons, List.not_mem_nil, or_false, ← UInt64.toNat_inj,
      UInt64.lt_iff_toNat_lt, UInt64.reduceToNat]
    constructor <;> omega
  · obtain ⟨earlier, isNew, later, hearlier, hrecord, hiff⟩ := hanswers [3, 1, 5] 3 [2, 0] rfl
    have hold : isNew = false := Bool.eq_false_iff.2 fun hnew => absurd (hiff.1 hnew) (by decide)
    exact ⟨earlier, later, hearlier, hold ▸ hrecord⟩
  · obtain ⟨earlier, isNew, later, hearlier, hrecord, hiff⟩ := hanswers [3, 1, 5, 3] 2 [0] rfl
    exact ⟨earlier, later, hearlier, hiff.2 (by decide) ▸ hrecord⟩
  · simp only [List.mem_cons, List.not_mem_nil, or_false, ← UInt64.toNat_inj, UInt64.reduceToNat]
    constructor <;> omega

end

end Ledger

end IngestCoordinator
