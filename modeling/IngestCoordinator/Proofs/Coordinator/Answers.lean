-- SUMMARY: Requests for rows of a coordinator answer exactly the grants that are made.
import IngestCoordinator.Proofs.Coordinator.Steady

/-!
# Answers

A request for rows may open segments before it is answered, and give up after any
of its steps. What it answers is the one grant that it has made; when it gives up it
has made none.
-/

namespace IngestCoordinator.Coordinator

open Operation

variable {c d : Coordinator}

/-- A segment is opened under the key that it has been stored with just before. -/
theorem steady_addSegment_openSegment {segment : Segment} (hfresh : segment.IsFresh) : Steady (do
    onAllocator (Allocator.onStore (GuardedStore.addSegment segment))
    onAllocator (Allocator.openSegment segment)) := fun c hsound => by
  have hadd := Allocator.ensures_addSegment_stored (a := c.allocator) segment.id segment.key
    segment.group segment.node segment.capacity segment.openTime
  rw [← hfresh] at hadd
  simp only [ensures_bind, onAllocator, ensures_onPart]
  refine hadd.imp (fun _ b h => ?_) fun _ b h => .of_run hsound h
  obtain ⟨hrun, hstored⟩ := h
  have hadded := Proceeds.of_run hsound hrun
  have hadmits : Allocator.asStored b (.openSegment segment) := by
    intro segment' heq stored hget
    cases heq
    cases hstored.symm.trans hget
    rfl
  have hopened := Allocator.run_request (.openSegment segment) hadmits rfl
  exact (Ensures.of_attempt_snd hopened).imp (fun _ _ h => hadded.trans (.of_run hadded.sound h))
    fun _ _ h => hadded.trans (.of_run hadded.sound h)

theorem steady_openSegment (key : SegmentKey) : Steady (openSegment key) := by
  refine (steady_onAllocator (Allocator.silent_openTarget? key)).bind fun target => ?_
  cases target with
  | some target => exact fun c h => .refl h
  | none =>
    refine (steady_requireCollection key.collection).bind fun collection => ?_
    dsimp only
    split
    · exact fun c h => .refl h
    · refine Steady.get.bind fun c => (Steady.ofExcept _).bind fun group => ?_
      refine (Steady.ofExcept _).bind fun width => ?_
      refine (steady_onAllocator (Allocator.silent_onIds _)).bind fun id => ?_
      refine (steady_onAllocator (Allocator.silent_onIds _)).bind fun openTime => ?_
      exact steady_addSegment_openSegment rfl

/-- An answered request for rows is the grant that it answers. -/
theorem ensures_alloc (key : SegmentKey) (wanted : UInt64) (h : c.Sound) :
    Ensures (onAllocator (Allocator.alloc key wanted)) c
      (fun grant d => c.Proceeds [⟨wanted, grant⟩] d) (fun _ d => c.Proceeds [] d) := by
  have hrun := Course.single (Allocator.Step.request (a := c.allocator)
    (.alloc key wanted) (Allocator.asStored_of_ne (by simp)))
  rw [onAllocator, ensures_onPart]
  unfold Allocator.perform at hrun
  unfold Ensures
  split
  · rename_i heq
    simp only [heq] at hrun
    exact .of_run h hrun
  · rename_i heq
    simp only [heq] at hrun
    exact .of_run h hrun

theorem ensures_assignOne (request : RowRequest) (opens : Nat) (h : c.Sound) :
    Ensures (assignOne request opens) c
      (fun grant d => c.Proceeds [⟨request.count, grant⟩] d) (fun _ d => c.Proceeds [] d) := by
  induction opens generalizing c with
  | zero => exact ensures_alloc request.key request.count h
  | succ opens ih =>
    have halloc := (ensures_alloc request.key request.count h).attempt
    rw [assignOne, ensures_bind, ensures_ofStep]
    generalize (onAllocator (Allocator.alloc request.key request.count)).attempt c = attempted
      at halloc ⊢
    obtain ⟨result, d⟩ := attempted
    cases result with
    | ok grant => exact halloc
    | error e =>
      have hfailed : c.Proceeds [] d := halloc
      dsimp only
      split
      · rename_i heq
        cases heq
      · rw [ensures_bind, ensures_ofStep]
        have hopened := (steady_openSegment request.key).attempt hfailed.sound
        generalize (openSegment request.key).attempt d = attempted at hopened ⊢
        obtain ⟨result, e⟩ := attempted
        have hboth := hfailed.trans hopened
        -- Opened by this request or by another one, it is tried again with one opening less.
        have hagain : Ensures (assignOne request opens) e
            (fun grant f => c.Proceeds [⟨request.count, grant⟩] f) (fun _ f => c.Proceeds [] f) :=
          (ih hopened.sound).imp (fun _ _ hf => hboth.trans hf) fun _ _ hf => hboth.trans hf
        dsimp only
        split
        · exact hagain
        · exact hagain
        · exact hboth
      · exact hfailed

/-- The grants among the answers to some requests, with the numbers of rows asked for. -/
def returnedOf : List RowRequest → List (Except Error Grant) → List Allocator.Returned
  | request :: requests, .ok grant :: answers => ⟨request.count, grant⟩ :: returnedOf requests answers
  | _ :: requests, .error _ :: answers => returnedOf requests answers
  | [], _ | _, [] => []

/-- A request is answered as it is without being counted, and an error is counted besides. -/
theorem assignCounted_cases {request : RowRequest} {done : Grant → Coordinator → Prop}
    {failed : Error → Coordinator → Prop}
    (h : Ensures (assignOne request c.settings.segment.maxOpenAttempts.toNat) c done failed) :
    (∃ grant d, assignCounted request c = (.ok grant, d) ∧ done grant d) ∨
      ∃ error d, assignCounted request c =
        (.error error, { d with metrics.failed := d.metrics.failed + 1 }) ∧ failed error d := by
  have hone := h.attempt
  simp only [assignCounted, step_bind, step_get]
  generalize (assignOne request c.settings.segment.maxOpenAttempts.toNat).attempt c = attempted
    at hone ⊢
  obtain ⟨result, d⟩ := attempted
  cases result with
  | ok grant => exact .inl ⟨grant, d, rfl, hone⟩
  | error error => exact .inr ⟨error, d, rfl, hone⟩

theorem proceeds_assignCounted (request : RowRequest) (h : c.Sound) :
    c.Proceeds (returnedOf [request] [(assignCounted request c).1]) (assignCounted request c).2 := by
  rcases assignCounted_cases (ensures_assignOne request _ h) with
    ⟨grant, d, hcounted, hgranted⟩ | ⟨error, d, hcounted, hfailed⟩
  · rw [hcounted]
    exact hgranted
  · rw [hcounted]
    exact hfailed.trans (.of_eq hfailed.sound rfl fun _ hmem => hmem)

/-- The answers to a batch of requests are the grants that have been made for it. -/
theorem proceeds_assign (requests : List RowRequest) (h : c.Sound) :
    c.Proceeds (returnedOf requests (assign requests c).1) (assign requests c).2 := by
  induction requests generalizing c with
  | nil => exact .refl h
  | cons request requests ih =>
    have hfirst := proceeds_assignCounted request h
    have hrest := ih hfirst.sound
    have hboth := hfirst.trans hrest
    simp only [assign, step_bind, step_pure]
    generalize assignCounted request c = counted at hboth ⊢
    obtain ⟨answer, d⟩ := counted
    cases answer with
    | ok grant => exact hboth
    | error e => exact hboth

end IngestCoordinator.Coordinator
