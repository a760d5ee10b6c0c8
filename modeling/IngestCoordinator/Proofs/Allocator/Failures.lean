-- SUMMARY: A request for rows or to open a segment that fails takes no room from any key.
import IngestCoordinator.Proofs.Allocator.Guarantees
import IngestCoordinator.Proofs.Allocator.Serving

/-!
# Failures

Reads, writes and draws may all be refused, at any point of a request. A request for
rows that fails leaves the records and the index alone. One to open a segment may have
superseded and retired the target of the key when it fails, but then that target had
no room left; so every key has the room that it had, and the segment that was to be
opened is as it was.
-/

namespace IngestCoordinator

open Operation

namespace GuardedStore

/-- Reads of segments are refused, or they answer what is stored. -/
structure Honest (store : GuardedStore) : Prop where
  hidden : store.faults.hidden = .empty
  stale : store.faults.stale = .empty

end GuardedStore

namespace Allocator

variable {a b c : Allocator} {key : SegmentKey} {id : SegmentId} {segment stored : Segment}
  {wanted : UInt64}

/-! ## The rows that are granted -/

/-- The rows that a request is granted, where writes are not made to fail. -/
def rows (a : Allocator) (key : SegmentKey) (wanted : UInt64) :
    Except Error (SegmentId × UInt64 × UInt64) :=
  if wanted = 0 then .error (.invalidArgument .rowCountNotPositive)
  else
    match a.room? key with
    | none => .error (.noGrowingSegment key)
    | some target =>
      if a.ids.rejecting then .error (.storeUnavailable .idsRejected)
      else .ok (target.id, target.nextOffset, min wanted target.remaining)

/-- A request for rows is answered by what room there is, and by nothing else. -/
theorem ensures_alloc_rows (h : a.Sound) (hwritable : a.store.Writable) (key : SegmentKey)
    (wanted : UInt64) : Ensures (alloc key wanted) a
      (fun grant _ => a.rows key wanted = .ok grant.rows)
      (fun e _ => a.rows key wanted = .error e) := by
  unfold rows
  split
  · rename_i hzero
    subst hzero
    apply (ensures_alloc_zero key).imp
    · exact fun _ _ hfalse => hfalse.elim
    · rintro e b ⟨rfl, -⟩
      rfl
  · rename_i hwanted
    cases hroom : a.room? key with
    | none =>
      apply (ensures_alloc_no_room h hwanted hroom).imp
      · exact fun _ _ hfalse => hfalse.elim
      · rintro e b ⟨rfl, -⟩
        rfl
    | some target =>
      apply (ensures_alloc_room h hwritable hwanted hroom).imp
      · rintro grant b ⟨hdraws, hserved⟩
        simp [hdraws, hserved.rows]
      · rintro e b ⟨hrefused, rfl⟩
        simp [hrefused]

/-! ## Requests that fail -/

/-- A request for rows that fails writes nothing and leaves the index alone. -/
theorem ensures_alloc_failed (key : SegmentKey) (wanted : UInt64) :
    Ensures (alloc key wanted) a (fun _ _ => True)
      (fun _ b => a.store.metadata.Untouched b.store.metadata ∧ b.index = a.index) := by
  have hsame : a.store.metadata.Untouched a.store.metadata ∧ a.index = a.index := ⟨.refl _, rfl⟩
  unfold alloc
  split
  · exact hsame
  · simp only [ensures_bind]
    apply (ensures_openTarget?_same key a).imp
    · rintro found b rfl
      cases found with
      | none => exact hsame
      | some target =>
        simp only [ensures_bind, ensures_get, ensures_pure]
        apply ensures_onIds.imp
        · rintro time b ⟨ids, rfl⟩
          apply (ensures_update target.id _).imp
          · exact fun _ _ _ => trivial
          · rintro e b ⟨huntouched, -⟩
            exact ⟨huntouched.metadata, by rw [huntouched.rest]⟩
        · rintro e b ⟨ids, rfl⟩
          exact hsame
    · rintro e b rfl
      exact hsame

theorem ensures_segment?_honest {done : Option Segment → Allocator → Prop}
    {failed : Error → Allocator → Prop} (h : a.store.Honest) (hdone : done (a.segments.get? id) a)
    (hfailed : ∀ e, failed e a) : Ensures (segment? id) a done failed := by
  simp only [segment?, GuardedStore.segment?, h.hidden, h.stale, ensures_bind, ensures_get,
    ensures_ofExcept]
  split
  · refine ⟨fun found hfound => ?_, fun e _ => hfailed e⟩
    cases hfound
  · refine ⟨fun found hfound => ?_, fun e he => ?_⟩
    · cases hfound
      exact hdone
    · cases he

/-- The target of the key, which had no room, has been superseded and retired. -/
def Vacated (key : SegmentKey) (a b : Allocator) : Prop :=
  ∃ target c, a.index.target? key = some target.id ∧ a.segments.get? target.id = some target ∧
    target.state = .growing ∧ target.isAllocatable = false ∧
    Stored { target with superseded := true } a c ∧
    b = { c with index := c.index.retire key target.id }

/-- After an attempt that fails: the target has given way, or not even that. -/
def Unopened (segment : Segment) (a c : Allocator) : Prop :=
  ∃ b, b.Untouched c ∧ (b = a ∨ Vacated segment.key a b ∧
    ∃ stored, a.segments.get? segment.id = some stored ∧ stored.state = .new)

theorem Unopened.of_untouched (h : a.Untouched b) : Unopened segment a b :=
  ⟨a, h, .inl rfl⟩

theorem ensures_retireTarget_vacated (hhonest : a.store.Honest)
    (hcoherent : a.store.metadata.Coherent) (hagrees : a.index.Agrees a.segments)
    (key : SegmentKey) : Ensures (retireTarget key) a (fun _ b => b = a ∨ Vacated key a b)
      (fun _ b => a.Untouched b) := by
  simp only [retireTarget, ensures_bind, ensures_get]
  cases htarget : a.index.target? key with
  | none => exact .inl rfl
  | some previous =>
    obtain ⟨target, hget, -, hgrowing, hflag⟩ := (hagrees.target key previous).1 htarget
    obtain rfl := hcoherent.numbered hget
    simp only [ensures_bind]
    apply ensures_segment?_honest hhonest
    case hfailed => exact fun _ => .refl a
    case hdone =>
      simp only [hget]
      cases hroom : target.isAllocatable with
      | true => exact .refl a
      | false =>
        have hok : target.supersede = .ok { target with superseded := true } :=
          Segment.supersede_eq_ok_iff.2 (.inl ⟨hgrowing, rfl⟩)
        simp only [hgrowing, hflag, decide_true, Bool.not_false, Bool.and_self, if_true,
          Bool.false_eq_true, if_false, ensures_bind]
        apply (ensures_update target.id Segment.supersede).imp
        · rintro updated c ⟨segment, hget', hok', -, hstored⟩
          cases hget.symm.trans hget'
          cases hok.symm.trans hok'
          exact .inr ⟨target, c, htarget, hget, hgrowing, hroom, hstored, rfl⟩
        · exact fun _ _ hfailed => hfailed.1

/-- An attempt to open a segment that fails has made way for it at most. -/
theorem ensures_openSegment_unopened (hhonest : a.store.Honest)
    (hcoherent : a.store.metadata.Coherent) (hagrees : a.index.Agrees a.segments)
    (segment : Segment) :
    Ensures (openSegment segment) a (fun _ _ => True) (fun _ c => Unopened segment a c) := by
  have hnothing : Unopened segment a a := .of_untouched (.refl a)
  simp only [openSegment, ensures_bind]
  apply ensures_segment?_honest hhonest
  case hfailed => exact fun _ => hnothing
  case hdone =>
    cases hget : a.segments.get? segment.id with
    | none => exact hnothing
    | some stored =>
      dsimp only
      split
      · exact hnothing
      · rename_i hnew
        simp only [ensures_bind]
        apply (ensures_retireTarget_vacated hhonest hcoherent hagrees segment.key).imp
        · intro _ b hvacated
          apply (ensures_update segment.id Segment.grow).imp
          · exact fun _ _ _ => trivial
          · rintro e c ⟨huntouched, -⟩
            refine ⟨b, huntouched, hvacated.imp_right fun hvacated => ⟨hvacated, stored, hget, ?_⟩⟩
            exact Decidable.not_not.1 hnew
        · exact fun _ c huntouched => .of_untouched huntouched

/-! ## What is left after a failure -/

/-- A target without room is no loss. -/
theorem Vacated.room?_eq (h : Vacated key a b) (hagrees : a.index.Agrees a.segments)
    (key' : SegmentKey) : b.room? key' = a.room? key' := by
  obtain ⟨target, c, htarget, hget, hgrowing, hfull, hstored, rfl⟩ := h
  obtain ⟨_, hget', hkey, -, -⟩ := (hagrees.target key target.id).1 htarget
  cases hget.symm.trans hget'
  have hsegments : c.segments = a.segments.insert target.id { target with superseded := true } :=
    hstored.segments
  have hindex : c.index = a.index := by rw [hstored.rest]
  change ((c.index.retire key target.id).target? key').bind
    (fun id => (c.segments.get? id).filter Segment.isAllocatable) = _
  rw [room?, hindex, KeyIndex.target?_retire]
  by_cases hsame : key' = key
  · subst hsame
    simp [htarget, hget, hfull, Option.filter]
  · rw [if_neg fun hboth => hsame hboth.1]
    cases htarget' : a.index.target? key' with
    | none => rfl
    | some id =>
      -- The target of another key is another segment.
      obtain ⟨other, hother, hkey', -, -⟩ := (hagrees.target key' id).1 htarget'
      have hne : id ≠ target.id := by
        rintro rfl
        cases hget.symm.trans hother
        exact hsame (hkey'.symm.trans hkey)
      rw [Option.bind_some, Option.bind_some, hsegments, SortedMap.get?_insert, if_neg hne]

theorem Unopened.room?_eq (h : Unopened segment a c) (hagrees : a.index.Agrees a.segments)
    (key : SegmentKey) : c.room? key = a.room? key := by
  obtain ⟨b, huntouched, hb⟩ := h
  refine (room?_congr (by rw [huntouched.rest]) huntouched.segments key).trans ?_
  rcases hb with rfl | ⟨hvacated, -⟩
  · rfl
  · exact hvacated.room?_eq hagrees key

/-- The segment that was to be opened is as it was, in memory and in the backend. -/
theorem Unopened.get?_eq (h : Unopened segment a c) :
    c.segments.get? segment.id = a.segments.get? segment.id ∧
      c.store.metadata.backend.entries.get? (c.store.metadata.root.segment segment.id) =
        a.store.metadata.backend.entries.get? (a.store.metadata.root.segment segment.id) := by
  obtain ⟨b, huntouched, hb⟩ := h
  rw [huntouched.segments, huntouched.metadata.entries, huntouched.metadata.root]
  rcases hb with rfl | ⟨⟨target, d, -, hget, hgrowing, -, hstored, rfl⟩, stored, hget', hnew⟩
  · exact ⟨rfl, rfl⟩
  · have hne : segment.id ≠ target.id := by
      intro heq
      rw [heq, hget] at hget'
      cases hget'
      cases hgrowing.symm.trans hnew
    constructor
    · refine (congrArg (SortedMap.get? · segment.id) hstored.segments).trans ?_
      exact (SortedMap.get?_insert ..).trans (if_neg hne)
    · change d.store.metadata.backend.entries.get? (d.store.metadata.root.segment segment.id) = _
      rw [hstored.metadata.entries, hstored.metadata.root, SortedMap.get?_insert,
        if_neg fun heq => hne (Root.segment_inj.1 heq)]

/-! ## Failing and mended calls -/

/-- Any calls to the store and any draws may be refused, reads of segments too. -/
def Disturbs (a b : Allocator) : Prop :=
  ∃ c read, a.Surroundings c ∧ b = { c with store.faults.read := read }

/-- Refusing calls changes nothing. -/
structure Disturbs.Keeps (a b : Allocator) : Prop where
  honest : b.store.Honest
  coherent : b.store.metadata.Coherent
  agrees : b.index.Agrees b.segments
  records : b.store.metadata.records = a.store.metadata.records
  index : b.index = a.index

theorem Disturbs.keeps (h : a.Disturbs b) (hconsistent : a.Consistent) : Disturbs.Keeps a b := by
  obtain ⟨around, read, haround, rfl⟩ := h
  obtain ⟨htruthful, hcoherent, hagrees⟩ := haround.consistent hconsistent
  exact ⟨⟨htruthful.hidden, htruthful.stale⟩, hcoherent, hagrees, haround.records, haround.index⟩

/-- Nothing has happened but that reads and writes are no longer made to fail. -/
structure Mends (a b : Allocator) : Prop where
  surroundings : Surroundings { a with store.faults := b.store.faults } b
  truthful : b.store.Truthful
  writable : b.store.Writable

theorem Mends.sound (h : a.Mends b) (hcoherent : a.store.metadata.Coherent) : b.Sound where
  truthful := h.truthful
  coherent := hcoherent.sameRecords h.surroundings.sameRecords

theorem Mends.room?_eq (h : a.Mends b) (key : SegmentKey) : b.room? key = a.room? key :=
  room?_congr h.surroundings.index h.surroundings.segments key

/-- What is granted where nothing is made to fail. -/
theorem rows_alloc (h : a.Sound) (hwritable : a.store.Writable) (key : SegmentKey)
    (wanted : UInt64) : ((alloc key wanted).attempt a).1.map Grant.rows = a.rows key wanted := by
  have hrows := (ensures_alloc_rows h hwritable key wanted).attempt
  cases hresult : ((alloc key wanted).attempt a).1 with
  | ok grant =>
    rw [hresult] at hrows
    exact hrows.symm
  | error e =>
    rw [hresult] at hrows
    exact hrows.symm

/--
Whatever calls are refused: a request for rows that fails changes no record and no entry
of the index; and after a request to open a segment that fails, this segment is as it
was, and every request for rows is answered as it would have been before, once reads and
writes work again.
-/
theorem failures_cost_no_room {a₀ : Allocator} {log : List Returned} (hinitial : a₀.Initial)
    (hrun : Run asStored a₀ log a) (hdisturbs : a.Disturbs b) :
    (∀ key wanted e c, alloc key wanted b = .error e c →
      c.store.metadata.records = a.store.metadata.records ∧
      c.store.metadata.backend.entries = b.store.metadata.backend.entries ∧
      c.index = a.index) ∧
    ∀ segment e c, openSegment segment b = .error e c →
      c.segments.get? segment.id = a.segments.get? segment.id ∧
      c.store.metadata.backend.entries.get? (c.store.metadata.root.segment segment.id) =
        b.store.metadata.backend.entries.get? (b.store.metadata.root.segment segment.id) ∧
      ∀ before after, a.Mends before → c.Mends after → before.ids.rejecting = after.ids.rejecting →
        ∀ key wanted, ((alloc key wanted).attempt after).1.map Grant.rows =
          ((alloc key wanted).attempt before).1.map Grant.rows := by
  have hconsistent : a.Consistent := hrun.consistent hinitial.consistent
  have hkeeps := hdisturbs.keeps hconsistent
  have hsegments : b.segments = a.segments := congrArg Records.segments hkeeps.records
  constructor
  · intro key wanted e c herror
    obtain ⟨huntouched, hindex⟩ := (ensures_alloc_failed key wanted).error herror
    exact ⟨huntouched.records.trans hkeeps.records, huntouched.entries, hindex.trans hkeeps.index⟩
  · intro segment e c herror
    have hunopened : Unopened segment b c :=
      (ensures_openSegment_unopened hkeeps.honest hkeeps.coherent hkeeps.agrees segment).error herror
    have hcoherent : c.store.metadata.Coherent :=
      ((quietly_openSegment segment b UInt64.zero_le).error herror).coherent hkeeps.coherent
    obtain ⟨hget, hentry⟩ := hunopened.get?_eq
    refine ⟨hget.trans (congrArg (SortedMap.get? · segment.id) hsegments), hentry, ?_⟩
    intro before after hbefore hafter hrejecting key wanted
    have hroom : after.room? key = before.room? key :=
      calc after.room? key
        _ = c.room? key := hafter.room?_eq key
        _ = b.room? key := hunopened.room?_eq hkeeps.agrees key
        _ = a.room? key := room?_congr hkeeps.index hsegments key
        _ = before.room? key := (hbefore.room?_eq key).symm
    rw [rows_alloc (hafter.sound hcoherent) hafter.writable,
      rows_alloc (hbefore.sound hconsistent.coherent) hbefore.writable, rows, rows, hroom,
      hrejecting]

/-- All rows of a segment have been granted, and another one has been added. -/
def superseding : List Request :=
  granting ++ [.addSegment ⟨8⟩ onlyKey "group" none 10 0]

/-- Reads of a third segment and writes of the added one are refused. -/
def disturbed : Allocator :=
  { (performAll superseding onMemory).2 with
    store.faults.update := .ofElems [⟨8⟩]
    store.faults.read := .ofElems [⟨9⟩] }

/-- What is left once the added segment could not be opened. -/
def unopened : Allocator :=
  ((openSegment (.fresh ⟨8⟩ onlyKey "group" none 10 0)).attempt disturbed).2

/-- The full segment is retired when the second write fails; rows could not be had before either. -/
theorem failures_cost_no_room_full :
    openSegment (.fresh ⟨8⟩ onlyKey "group" none 10 0) disturbed =
        .error (.storeUnavailable .writeRejected) unopened ∧
      unopened.index.retired onlyKey = [⟨7⟩] ∧
      unopened.segments.get? ⟨8⟩ = some (.fresh ⟨8⟩ onlyKey "group" none 10 0) ∧
      ((alloc onlyKey 1).attempt { unopened with store.faults := {} }).1.map Grant.rows =
        .error (.noGrowingSegment onlyKey) := by
  have hrun := Run.performAll (show Admitted asStored superseding onMemory by decide +kernel)
  have hdisturbs : (performAll superseding onMemory).2.Disturbs disturbed :=
    ⟨{ (performAll superseding onMemory).2 with store.faults.update := .ofElems [⟨8⟩] }, _,
      ⟨rfl, rfl, fun _ _ => rfl, rfl, rfl, rfl, rfl, rfl, rfl, rfl, rfl⟩, rfl⟩
  have hfails : openSegment (.fresh ⟨8⟩ onlyKey "group" none 10 0) disturbed =
      .error (.storeUnavailable .writeRejected) unopened :=
    eq_error_of_attempt (by decide +kernel)
  obtain ⟨-, hopening⟩ := failures_cost_no_room initial_onMemory hrun hdisturbs
  obtain ⟨hget, -, hrows⟩ := hopening _ _ _ hfails
  have hhealthy : (performAll superseding onMemory).2.store.metadata.backend.Healthy :=
    ⟨by decide +kernel, by decide +kernel, by decide +kernel⟩
  have hbefore : (performAll superseding onMemory).2.Mends (performAll superseding onMemory).2 :=
    ⟨.refl _, ⟨by decide +kernel, by decide +kernel, by decide +kernel, by decide +kernel⟩,
      hhealthy, by decide +kernel⟩
  have hafter : unopened.Mends { unopened with store.faults := {} } :=
    ⟨.refl _, ⟨rfl, rfl, rfl, rfl⟩, ⟨by decide +kernel, by decide +kernel, by decide +kernel⟩, rfl⟩
  refine ⟨hfails, by decide +kernel, hget.trans (by decide +kernel), ?_⟩
  rw [hrows _ _ hbefore hafter (by decide +kernel)]
  decide +kernel

end Allocator

end IngestCoordinator
