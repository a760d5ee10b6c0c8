-- SUMMARY: The requests of a batch are answered one by one, and those that fail leave no trace.
import IngestCoordinator.Proofs.Coordinator.Assignment
import IngestCoordinator.Proofs.Views

/-!
# Batches

The requests of a batch are answered in order, each as if it had been made alone. Where
no calls are refused, a request that is answered by an error changes nothing but metrics,
and nothing that rows depend on looks at those. So the other requests are answered as
they would be without it.
-/

namespace IngestCoordinator

open Operation

/-! ## Metrics do not matter -/

namespace Allocator

variable {α : Type} {a b : Allocator}

/-- The allocator without its metrics. -/
def uncounted (a : Allocator) : Allocator :=
  { a with metrics := {} }

/-- Only metrics tell the two apart. -/
theorem eq_of_uncounted (h : a.uncounted = b.uncounted) : ∃ metrics, b = { a with metrics } := by
  refine ⟨b.metrics, ?_⟩
  have hb : b = { b.uncounted with metrics := b.metrics } := rfl
  rw [hb, ← h]
  rfl

theorem blind_onIds (call : Operation IdSource α) : Blind uncounted (onIds call) := by
  apply (Blind.self call).onPart
  · intro a b h
    obtain ⟨metrics, rfl⟩ := eq_of_uncounted h
    rfl
  · rintro a b ids _ h rfl
    obtain ⟨metrics, rfl⟩ := eq_of_uncounted h
    rfl

theorem blind_onStore (call : Operation GuardedStore α) : Blind uncounted (onStore call) := by
  apply (Blind.self call).onPart
  · intro a b h
    obtain ⟨metrics, rfl⟩ := eq_of_uncounted h
    rfl
  · rintro a b store _ h rfl
    obtain ⟨metrics, rfl⟩ := eq_of_uncounted h
    rfl

theorem blind_update (id : SegmentId) (change : Segment → Except Error Segment) :
    Blind uncounted (update id change) :=
  blind_onStore _

theorem blind_reindex (change : KeyIndex → KeyIndex) : Blind uncounted (reindex change) := by
  apply Blind.modify
  intro a b h
  obtain ⟨metrics, rfl⟩ := eq_of_uncounted h
  rfl

theorem blind_count (change : SegmentMetrics → SegmentMetrics) : Blind uncounted (count change) :=
  .modify fun _ _ h => h

theorem blind_segment? (id : SegmentId) : Blind uncounted (segment? id) := by
  refine .get_bind (fun _ => .ofExcept _) fun a b h => ?_
  obtain ⟨metrics, rfl⟩ := eq_of_uncounted h
  rfl

theorem blind_openTarget? (key : SegmentKey) : Blind uncounted (openTarget? key) := by
  refine .get_bind (fun a => ?_) fun a b h => ?_
  · split
    · exact .pure _
    · exact (blind_segment? _).bind fun _ => .pure _
  · obtain ⟨metrics, rfl⟩ := eq_of_uncounted h
    rfl

theorem blind_alloc (key : SegmentKey) (wanted : UInt64) : Blind uncounted (alloc key wanted) := by
  unfold alloc
  split
  · exact .throw _
  · refine (blind_openTarget? key).bind fun target => ?_
    cases target with
    | none => exact (blind_count _).bind fun _ => .throw _
    | some target =>
      refine (blind_onIds _).bind fun time => .get_bind (fun a => ?_) fun a b h => ?_
      · exact (blind_update _ _).bind fun _ => (blind_count _).bind fun _ => .pure _
      · obtain ⟨metrics, rfl⟩ := eq_of_uncounted h
        rfl

theorem blind_retireTarget (key : SegmentKey) : Blind uncounted (retireTarget key) := by
  refine .get_bind (fun a => ?_) fun a b h => ?_
  · split
    · exact .pure ()
    · refine (blind_segment? _).bind fun found => ?_
      dsimp only
      cases found with
      | none => exact blind_reindex _
      | some segment =>
        dsimp only
        split
        · exact (Blind.throw _).bind fun _ => by
            split
            · exact (blind_update _ _).bind fun _ => blind_reindex _
            · exact blind_reindex _
        · split
          · exact (blind_update _ _).bind fun _ => blind_reindex _
          · exact blind_reindex _
  · obtain ⟨metrics, rfl⟩ := eq_of_uncounted h
    rfl

theorem blind_openSegment (segment : Segment) : Blind uncounted (openSegment segment) := by
  refine (blind_segment? _).bind fun found => ?_
  split
  · exact .throw _
  · split
    · exact .throw _
    · refine (blind_retireTarget _).bind fun _ => (blind_update _ _).bind fun opened => ?_
      exact (blind_reindex _).bind fun _ => (blind_count _).bind fun _ => .pure _

end Allocator

namespace Coordinator

variable {α : Type} {c d : Coordinator}

/-- The coordinator without its metrics. -/
def uncounted (c : Coordinator) : Coordinator :=
  { c with allocator := c.allocator.uncounted, metrics := {} }

theorem eq_of_uncounted (h : c.uncounted = d.uncounted) :
    ∃ counters metrics, d = { c with allocator.metrics := counters, metrics } := by
  refine ⟨d.allocator.metrics, d.metrics, ?_⟩
  have hd : d = { d.uncounted with
      allocator.metrics := d.allocator.metrics, metrics := d.metrics } := rfl
  rw [hd, ← h]
  rfl

theorem blind_onAllocator {call : Operation Allocator α} (h : Blind Allocator.uncounted call) :
    Blind uncounted (onAllocator call) := by
  apply h.onPart
  · intro c d hcd
    obtain ⟨counters, metrics, rfl⟩ := eq_of_uncounted hcd
    rfl
  · intro c d a b hcd hab
    obtain ⟨counters, metrics, rfl⟩ := eq_of_uncounted hcd
    obtain ⟨counters, rfl⟩ := Allocator.eq_of_uncounted hab
    rfl

theorem blind_requireCollection (id : CollectionId) : Blind uncounted (requireCollection id) := by
  refine .get_bind (fun c => (Blind.ofExcept _).bind fun found => ?_) fun c d h => ?_
  · split
    · exact .throw _
    · exact .pure _
  · obtain ⟨counters, metrics, rfl⟩ := eq_of_uncounted h
    rfl

theorem blind_openSegment (key : SegmentKey) : Blind uncounted (openSegment key) := by
  refine (blind_onAllocator (Allocator.blind_openTarget? key)).bind fun target => ?_
  cases target with
  | some target => exact .throw _
  | none =>
    refine (blind_requireCollection _).bind fun collection => ?_
    dsimp only
    split
    · exact .throw _
    · refine .get_bind (fun c => ?_) fun c d h => ?_
      · refine (Blind.ofExcept _).bind fun group => (Blind.ofExcept _).bind fun width => ?_
        refine (blind_onAllocator (Allocator.blind_onIds _)).bind fun id => ?_
        refine (blind_onAllocator (Allocator.blind_onIds _)).bind fun openTime => ?_
        refine (blind_onAllocator (Allocator.blind_onStore _)).bind fun _ => ?_
        exact blind_onAllocator (Allocator.blind_openSegment _)
      · obtain ⟨counters, metrics, rfl⟩ := eq_of_uncounted h
        rfl

theorem blind_assignOne (request : RowRequest) (opens : Nat) :
    Blind uncounted (assignOne request opens) := by
  have halloc := blind_onAllocator (Allocator.blind_alloc request.key request.count)
  induction opens with
  | zero => exact halloc
  | succ opens ih =>
    refine (StepBlind.ofStep halloc).bind fun answer => ?_
    split
    · exact .pure _
    · refine (StepBlind.ofStep (blind_openSegment request.key)).bind fun opened => ?_
      split
      · exact ih
      · exact ih
      · exact .throw _
    · exact .throw _

theorem blind_assignCounted (request : RowRequest) :
    StepBlind uncounted (assignCounted request) := by
  refine .get_bind (fun c => ?_) fun c d h => ?_
  · refine StepBlind.bind (blind_assignOne request _) fun answer => ?_
    cases answer with
    | ok grant => exact .pure _
    | error error => exact (StepBlind.modify fun _ _ h => h).bind fun _ => .pure _
  · obtain ⟨counters, metrics, rfl⟩ := eq_of_uncounted h
    rfl

/-- What is answered to a batch, and what is left apart from metrics, depends on no metrics. -/
theorem blind_assign (requests : List RowRequest) : StepBlind uncounted (assign requests) := by
  induction requests with
  | nil => exact .pure _
  | cons request requests ih =>
    exact (blind_assignCounted request).bind fun _ => ih.bind fun _ => .pure _

/-! ## Requests that fail -/

variable {requests kept : List RowRequest}
  {answers keptAnswers : List (Except Error Grant)} {n : Nat}

theorem Healthy.of_uncounted (h : c.Healthy n) (hsame : d.uncounted = c.uncounted) :
    d.Healthy n := by
  obtain ⟨counters, metrics, rfl⟩ := eq_of_uncounted hsame.symm
  exact ⟨h.writable, h.readable, h.drawable, h.distinct, h.unused⟩

/-- A request takes one new identifier at most, and changes nothing but metrics if it fails. -/
theorem ensures_assignOne_healthy (request : RowRequest) (h : c.Sound)
    (hhealthy : c.Healthy (n + 1)) (opens : Nat) :
    Ensures (assignOne request opens) c (fun _ d => d.Healthy n)
      (fun _ d => d.uncounted = c.uncounted) := by
  by_cases hzero : request.count = 0
  · apply (ensures_assignOne_zero hzero opens).imp
    · exact fun _ _ hfalse => hfalse.elim
    · rintro error d ⟨-, rfl⟩
      rfl
  · cases hroom : c.allocator.room? request.key with
    | some target =>
      have hget := (Allocator.room?_eq_some h.allocator.sound hroom).1
      apply (ensures_assignOne_room h hhealthy hzero hroom opens).imp
      · exact fun _ d hserved => hhealthy.mono.served hget hserved.1
      · exact fun _ _ hfalse => hfalse.elim
    | none =>
      cases opens with
      | zero =>
        apply (ensures_alloc_turnedAway h hzero hroom).imp
        · exact fun _ _ hfalse => hfalse.elim
        · rintro error d ⟨-, rfl⟩
          rfl
      | succ opens =>
        apply (ensures_assignOne_no_room h hhealthy hzero hroom opens).imp
        · rintro grant d ⟨segment, hprovides, -⟩
          exact hprovides.healthy hhealthy
        · rintro error d ⟨rfl, -⟩
          rfl

theorem assignCounted_healthy (request : RowRequest) (h : c.Sound)
    (hhealthy : c.Healthy (n + 1)) :
    (assignCounted request c).2.Healthy n ∧ ∀ error, (assignCounted request c).1 = .error error →
      (assignCounted request c).2.uncounted = c.uncounted := by
  rcases assignCounted_cases (ensures_assignOne_healthy request h hhealthy _) with
    ⟨grant, d, hcounted, hd⟩ | ⟨error, d, hcounted, hsame⟩
  · rw [hcounted]
    refine ⟨hd, fun error herror => ?_⟩
    cases herror
  · rw [hcounted]
    exact ⟨hhealthy.mono.of_uncounted hsame, fun _ _ => hsame⟩

/-! ## Batches -/

/-- Some of the requests, all of them answered by errors, have been left out with their answers. -/
inductive Drops : List RowRequest → List (Except Error Grant) → List RowRequest →
    List (Except Error Grant) → Prop where
  | nil : Drops [] [] [] []
  | keep {requests kept : List RowRequest} {answers keptAnswers : List (Except Error Grant)}
    (request : RowRequest) (answer : Except Error Grant)
    (h : Drops requests answers kept keptAnswers) :
    Drops (request :: requests) (answer :: answers) (request :: kept) (answer :: keptAnswers)
  | drop {requests kept : List RowRequest} {answers keptAnswers : List (Except Error Grant)}
    (request : RowRequest) (error : Error) (h : Drops requests answers kept keptAnswers) :
    Drops (request :: requests) (.error error :: answers) kept keptAnswers

/-- Makes a batch of each request. -/
def assignEach : List RowRequest → StateM Coordinator (List (Except Error Grant))
  | [] => return []
  | request :: requests => do
    let answers ← assign [request]
    return answers ++ (← assignEach requests)

theorem assign_cons (request : RowRequest) (requests : List RowRequest) (c : Coordinator) :
    assign (request :: requests) c =
      ((assignCounted request c).1 :: (assign requests (assignCounted request c).2).1,
        (assign requests (assignCounted request c).2).2) :=
  rfl

theorem assign_eq_assignEach (requests : List RowRequest) :
    assign requests = assignEach requests := by
  induction requests with
  | nil => rfl
  | cons request requests ih =>
    funext c
    rw [assign_cons, ih]
    rfl

theorem length_assign (requests : List RowRequest) (c : Coordinator) :
    (assign requests c).1.length = requests.length := by
  induction requests generalizing c with
  | nil => rfl
  | cons request requests ih => exact congrArg (· + 1) (ih _)

/-- The answer to a request is what the coordinator answers after the earlier ones. -/
theorem getElem?_assign (earlier later : List RowRequest) (request : RowRequest) (c : Coordinator) :
    (assign (earlier ++ request :: later) c).1[earlier.length]? =
      some (assignCounted request (assign earlier c).2).1 := by
  induction earlier generalizing c with
  | nil => rfl
  | cons first earlier ih => exact ih _

/-- Without the requests that failed the others are answered in the same way. -/
theorem Drops.assign_eq (h : Drops requests answers kept keptAnswers) (hsound : c.Sound)
    (hhealthy : c.Healthy requests.length) (hanswers : (assign requests c).1 = answers) :
    (assign kept c).1 = keptAnswers ∧
      (assign kept c).2.uncounted = (assign requests c).2.uncounted := by
  induction h generalizing c with
  | nil => exact ⟨rfl, rfl⟩
  | keep request answer _ ih =>
    obtain ⟨hhealthy', -⟩ := assignCounted_healthy request hsound hhealthy
    have hsound' := (proceeds_assignCounted request hsound).sound
    obtain ⟨hanswer, hrest⟩ := List.cons.inj hanswers
    obtain ⟨hkept, hsame⟩ := ih hsound' hhealthy' hrest
    exact ⟨congrArg₂ List.cons hanswer hkept, hsame⟩
  | drop request error _ ih =>
    obtain ⟨hhealthy', hfailed⟩ := assignCounted_healthy request hsound hhealthy
    have hsound' := (proceeds_assignCounted request hsound).sound
    obtain ⟨hanswer, hrest⟩ := List.cons.inj hanswers
    obtain ⟨hkept, hsame⟩ := ih hsound' hhealthy' hrest
    -- The rest starts from a coordinator that differs by metrics only.
    obtain ⟨hanswers', hsame'⟩ := blind_assign _ _ _ (hfailed error hanswer)
    exact ⟨hanswers'.symm.trans hkept, hsame'.symm.trans hsame⟩

/--
Where no calls are refused: each request of a batch has one answer, in its place, which
is the answer after the earlier ones; a batch is answered as its requests are one at a
time; and without any of the requests that are answered by errors the others have the
same answers, and all that is left is the same but for metrics.
-/
theorem batch_items_independent {c₀ : Coordinator} {events : List Event} (hinitial : c₀.Initial)
    (hrun : Run c₀ events c) (requests : List RowRequest) (hhealthy : c.Healthy requests.length) :
    (assign requests c).1.length = requests.length ∧
    (∀ earlier request later, requests = earlier ++ request :: later →
      (assign requests c).1[earlier.length]? =
        some (assignCounted request (assign earlier c).2).1) ∧
    assign requests c = assignEach requests c ∧
    ∀ kept keptAnswers, Drops requests (assign requests c).1 kept keptAnswers →
      (assign kept c).1 = keptAnswers ∧
        (assign kept c).2.uncounted = (assign requests c).2.uncounted := by
  have hsound : c.Sound := (hrun.tells hinitial.sound).proceeds.sound
  refine ⟨length_assign requests c, ?_, congrFun (assign_eq_assignEach requests) c, ?_⟩
  · rintro earlier request later rfl
    exact getElem?_assign earlier later request c
  · intro kept keptAnswers hdrops
    exact hdrops.assign_eq hsound hhealthy rfl

/-- Rows on the only channel, between requests for no rows and for a partition that is missing. -/
def mixed : List RowRequest :=
  [⟨⟨⟨1⟩, ⟨3⟩, "channel-1_0"⟩, 5⟩, ⟨⟨⟨1⟩, ⟨2⟩, "channel-1_0"⟩, 5⟩, ⟨⟨⟨1⟩, ⟨2⟩, "channel-1_0"⟩, 0⟩,
    ⟨⟨⟨1⟩, ⟨2⟩, "channel-1_0"⟩, 9⟩]

/-- The two that can be answered are answered in the same way without the two that cannot. -/
theorem batch_items_independent_mixed :
    (assign mixed full).1 = [.error (.notFound (.partition ⟨3⟩)), .ok ⟨⟨2⟩, 0, 5, 262145⟩,
        .error (.invalidArgument .rowCountNotPositive), .ok ⟨⟨2⟩, 5, 5, 262146⟩] ∧
      (assign [⟨⟨⟨1⟩, ⟨2⟩, "channel-1_0"⟩, 5⟩, ⟨⟨⟨1⟩, ⟨2⟩, "channel-1_0"⟩, 9⟩] full).1 =
        [.ok ⟨⟨2⟩, 0, 5, 262145⟩, .ok ⟨⟨2⟩, 5, 5, 262146⟩] := by
  have hrun : Run onMemory (performAll assigning onMemory).1 full := run_performAll ..
  obtain ⟨-, -, -, hdropping⟩ :=
    batch_items_independent initial_onMemory hrun mixed healthy_full
  have hanswers : (assign mixed full).1 = [.error (.notFound (.partition ⟨3⟩)),
      .ok ⟨⟨2⟩, 0, 5, 262145⟩, .error (.invalidArgument .rowCountNotPositive),
      .ok ⟨⟨2⟩, 5, 5, 262146⟩] := by decide +kernel
  refine ⟨hanswers, (hdropping _ _ ?_).1⟩
  rw [hanswers]
  exact .drop _ _ (.keep _ _ (.drop _ _ (.keep _ _ .nil)))

end Coordinator

end IngestCoordinator
