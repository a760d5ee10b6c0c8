-- SUMMARY: A collection whose growing segments are superseded takes no rows until one is opened.
import IngestCoordinator.Proofs.Allocator.Stages

/-!
# Shut collections

A collection is shut if all of its segments that grow have been superseded. Nothing
but opening a segment of the collection ends that: neither other requests, whatever
becomes of them, nor attempts to open a segment that fail, nor restarts. As long as it
is shut no key of the collection has a target, and requests for rows find no segment.
-/

namespace IngestCoordinator

open Operation

/-! ## Writes -/

/-- All growing segments of the collection have been superseded. -/
def Segments.Shut (collection : CollectionId) (segments : Segments) : Prop :=
  ∀ id segment, segments.get? id = some segment → segment.collection = collection →
    segment.state = .growing → segment.superseded = true

/-- The write opens no segment, unless it is one of another collection. -/
def Write.Spares (segments : Segments) (collection : CollectionId) (write : Write) : Prop :=
  ∀ id, write = .change id .grow →
    ∃ segment, segments.get? id = some segment ∧ segment.collection ≠ collection

variable {collection : CollectionId}

theorem Write.spares_change {segments : Segments} {id : SegmentId} {change : Change}
    (h : change ≠ .grow) : (Write.change id change).Spares segments collection := by
  intro id' heq
  cases heq
  exact absurd rfl h

/-- Only opening makes a segment grow, and nothing else takes back that it is superseded. -/
theorem Change.superseded_of_growing {change : Change} {segment updated : Segment}
    (happly : change.apply segment = .ok updated) (hchange : change ≠ .grow)
    (hgrowing : updated.state = .growing)
    (h : segment.state = .growing → segment.superseded = true) : updated.superseded = true := by
  have hbefore : segment.state = .growing := by
    rcases Change.state_eq_or_next happly with hstate | ⟨-, hgoal⟩
    · exact hstate ▸ hgrowing
    · rw [hgrowing] at hgoal
      cases change with
      | grow => exact absurd rfl hchange
      | grant | supersede | sealAt | flush | report => cases hgoal
  exact Segment.superseded_of_change happly (by simp [hbefore]) (h hbefore)

theorem History.shut {before after : Segments} {writes : List Write}
    (hhistory : History before writes after)
    (hspares : ∀ write ∈ writes, write.Spares before collection)
    (hshut : before.Shut collection) : after.Shut collection := by
  induction hhistory with
  | nil => exact hshut
  | @snoc between after writes write hhistory hdoes ih =>
    obtain ⟨hearlier, hlast⟩ := List.forall_mem_append.1 hspares
    have hbetween := ih hearlier
    intro id segment hget hcollection hgrowing
    cases hdoes.origin hget with
    | kept hget => exact hbetween id segment hget hcollection hgrowing
    | added hfresh =>
      rw [hfresh] at hgrowing
      cases hgrowing
    | @changed change old hold happly =>
      have hsame := (Segment.SameOrigin.of_change happly).collection
      have hchange : change ≠ .grow := by
        rintro rfl
        -- The segment was stored in another collection, and stays there.
        obtain ⟨first, hfirst, hother⟩ := hlast _ (List.mem_singleton_self _) id rfl
        obtain ⟨_, hold', hkey⟩ := History.key_eq hhistory hfirst
        cases hold.symm.trans hold'
        have hstays : old.collection = first.collection := congrArg SegmentKey.collection hkey
        exact hother (hstays.symm.trans (hsame.symm.trans hcollection))
      apply Change.superseded_of_growing happly hchange hgrowing
      exact hbetween id old hold (hsame.symm.trans hcollection)

namespace Allocator

variable {a b c : Allocator} {log : List Returned} {key : SegmentKey}

/-! ## Requests -/

theorem Evolved.shut (h : a.Evolved (·.Spares a.segments collection) b)
    (hshut : a.segments.Shut collection) : b.segments.Shut collection := by
  obtain ⟨writes, hevolves, hspares⟩ := h
  exact hevolves.history.shut hspares hshut

/-- An attempt to open a segment that fails has superseded segments at most. -/
theorem ensures_openSegment_failed {kind : Write → Prop}
    (hsupersede : ∀ id, kind (.change id .supersede)) (segment : Segment) :
    Ensures (openSegment segment) a (fun _ _ => True) (fun _ b => a.Wrote kind b) := by
  simp only [openSegment, ensures_bind]
  apply (writes_segment? segment.id a (UInt64.le_refl _)).imp
  case hfailed => exact fun _ _ hwrote => hwrote
  case hdone =>
    intro found b hwrote
    cases found with
    | none => exact hwrote
    | some stored =>
      dsimp only
      split
      · exact hwrote
      · simp only [ensures_bind]
        apply (writes_retireTarget hsupersede segment.key b (UInt64.le_refl _)).imp
        case hfailed => exact fun _ _ hwrote' => hwrote.trans hwrote'
        case hdone =>
          intro _ c hwrote'
          apply (ensures_update segment.id Segment.grow).imp
          · exact fun _ _ _ => trivial
          · exact fun _ d hfailed => (hwrote.trans hwrote').trans hfailed.1.wrote

/-- Segments are opened as they are stored, and none of the collection is opened. -/
def opensNone (collection : CollectionId) (a : Allocator) (request : Request) : Prop :=
  asStored a request ∧ ∀ segment, request = .openSegment segment →
    segment.collection = collection → ∃ e b, openSegment segment a = .error e b

/-- Only a stored segment is opened. -/
theorem stored_of_openSegment {segment opened : Segment} (htruthful : a.store.Truthful)
    (h : openSegment segment a = .ok opened b) :
    ∃ stored, a.segments.get? segment.id = some stored := by
  have hstored : Ensures (openSegment segment) a
      (fun _ _ => ∃ stored, a.segments.get? segment.id = some stored) (fun _ _ => True) := by
    simp only [openSegment, ensures_bind, ensures_segment?_iff htruthful]
    cases a.segments.get? segment.id with
    | none => trivial
    | some stored => exact .of_forall (fun _ _ => ⟨stored, rfl⟩) fun _ _ => trivial
  exact hstored.ok h

/-- What is opened is stored in another collection. -/
theorem evolved_openSegment_spares {segment : Segment} (htruthful : a.store.Truthful)
    (h : opensNone collection a (.openSegment segment)) :
    a.Evolved (·.Spares a.segments collection) ((openSegment segment).attempt a).2 := by
  have hsupersede (id : SegmentId) : (Write.change id .supersede).Spares a.segments collection :=
    Write.spares_change nofun
  unfold Operation.attempt
  cases hresult : openSegment segment a with
  | error e b => exact ((ensures_openSegment_failed hsupersede segment).error hresult).evolved
  | ok opened b =>
    obtain ⟨stored, hget⟩ := stored_of_openSegment htruthful hresult
    have hsame : stored.collection = segment.collection :=
      congrArg SegmentKey.collection (h.1 segment rfl stored hget)
    have hother : segment.collection ≠ collection := by
      intro hcollection
      obtain ⟨e, b, herror⟩ := h.2 segment rfl hcollection
      cases herror.symm.trans hresult
    have hgrow : (Write.change segment.id .grow).Spares a.segments collection := by
      intro id heq
      cases heq
      exact ⟨stored, hget, hsame ▸ hother⟩
    exact ((writes_openSegment hsupersede segment hgrow a (UInt64.le_refl _)).ok hresult).evolved

theorem evolved_perform_spares {request : Request} (hsound : a.Sound)
    (h : opensNone collection a request) :
    a.Evolved (·.Spares a.segments collection) (perform request a).2 := by
  by_cases hopens : ∃ segment, request = .openSegment segment
  · obtain ⟨segment, rfl⟩ := hopens
    exact evolved_openSegment_spares hsound.truthful h
  · apply (evolved_perform request hsound).mono
    rintro write hmakes id rfl
    exact absurd hmakes.opens hopens

theorem ensures_recover_shut (h : a.segments.Shut collection) :
    Ensures recover a (fun _ b => b.segments.Shut collection)
      (fun _ b => b.segments.Shut collection) := by
  have hsupersede (id : SegmentId) : (Write.change id .supersede).Spares a.segments collection :=
    Write.spares_change nofun
  apply (ensures_recover_evolved hsupersede).imp
  · exact fun _ _ hevolved => hevolved.shut h
  · exact fun _ _ hwrote => hwrote.evolved.shut h

/-! ## Runs -/

theorem Down.shut (h : Down a b) (hsound : a.Sound) (hshut : a.segments.Shut collection) :
    b.segments.Shut collection := by
  have hopened {a b : Allocator} (hsound : a.Sound) (hreopen : reopen a = .ok () b)
      (hshut : a.segments.Shut collection) : b.restarted.segments.Shut collection := by
    rw [((ensures_reopen_segments hsound).ok hreopen).1]
    exact hshut
  induction h with
  | reopened hreopen => exact hopened hsound hreopen hshut
  | surroundings _ hsurroundings ih => exact hsurroundings.segments ▸ ih
  | @catalog b _ catalog ih =>
    have hwrote : b.Wrote (·.Spares b.segments collection) ((onStore catalog.load).attempt b).2 :=
      (writes_onStore fun _ => catalog.ensures_load).attempt b UInt64.zero_le
    exact hwrote.evolved.shut ih
  | failed _ hrecover ih => exact (ensures_recover_shut ih).error hrecover
  | reopenedAgain hdown hreopen ih => exact hopened (hdown.extends hsound).sound hreopen ih

theorem Step.shut (h : Step (opensNone collection) a log b) (hconsistent : a.Consistent)
    (hshut : a.segments.Shut collection) : b.Consistent ∧ b.segments.Shut collection := by
  cases h with
  | request request hnone =>
    exact ⟨consistent_perform hconsistent hnone.1,
      (evolved_perform_spares hconsistent.sound hnone).shut hshut⟩
  | surroundings h => exact ⟨h.consistent hconsistent, h.segments ▸ hshut⟩
  | restart h =>
    refine ⟨(h.extends hconsistent.sound).2.1, ?_⟩
    obtain ⟨before, down, count, hsurroundings, hdown, hrecover⟩ := h
    have hshut' := hdown.shut (hsurroundings.sound hconsistent.sound)
      (hsurroundings.segments ▸ hshut)
    exact (ensures_recover_shut hshut').ok hrecover

theorem Run.shut (h : Run (opensNone collection) a log b) (hconsistent : a.Consistent)
    (hshut : a.segments.Shut collection) : b.Consistent ∧ b.segments.Shut collection :=
  h.invariant (p := fun a => a.Consistent ∧ a.segments.Shut collection)
    (fun _ _ _ hs hstep => hstep.shut hs.1 hs.2) ⟨hconsistent, hshut⟩

/-- No rows of a collection that is shut are granted. -/
theorem alloc_of_shut {wanted : UInt64} (hconsistent : a.Consistent)
    (hshut : a.segments.Shut key.collection) (hwanted : wanted ≠ 0) :
    ∃ b, alloc key wanted a = .error (.noGrowingSegment key) b := by
  have htarget : a.index.target? key = none := by
    cases htarget : a.index.target? key with
    | none => rfl
    | some id =>
      obtain ⟨segment, hget, hkey, hgrowing, hflag⟩ := (hconsistent.agrees.target key id).1 htarget
      have hclosed := hshut id segment hget (congrArg SegmentKey.collection hkey) hgrowing
      rw [hflag] at hclosed
      cases hclosed
  have hnone : Ensures (alloc key wanted) a (fun _ _ => False)
      (fun e _ => e = .noGrowingSegment key) := by
    simp only [alloc, if_neg hwanted, openTarget?, ensures_bind, ensures_get, htarget]
    rfl
  cases hresult : alloc key wanted a with
  | ok grant b => exact (hnone.ok hresult).elim
  | error e b => exact ⟨b, by rw [hnone.error hresult]⟩

end Allocator

end IngestCoordinator
