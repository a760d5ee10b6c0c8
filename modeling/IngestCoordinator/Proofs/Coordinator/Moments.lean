-- SUMMARY: Runs of one coordinator process, moment by moment, with what each step may do.
import IngestCoordinator.Proofs.Coordinator.Effects

/-!
# Moments

A run of one process is a path of moments: what the coordinator was before a step,
what it is after it, and what others are told in it. It is asked what is admitted,
ticks arrive, and time passes around it. Each step has one effect or none.
-/

namespace IngestCoordinator.Coordinator

open Operation

variable {c d e : Coordinator} {marks marks' : Timestamp → Prop} {goal : Option SegmentState}

/-- A step of a run, from before it to after it, and what others are told in it. -/
structure Moment where
  before : Coordinator
  after : Coordinator
  told : List Event := []

/-- The moment at which a request is made. -/
def momentOf (request : Request) (c : Coordinator) : Moment :=
  ⟨c, (perform request c).2, (perform request c).1⟩

/-- Time passes: nodes, channels, commands and stored segments are as they were. -/
structure Waits (c d : Coordinator) : Prop where
  allocator : c.allocator.Surroundings d.allocator
  registry : d.cluster.registry = c.cluster.registry
  outbox : d.cluster.outbox = c.cluster.outbox
  barrier : d.barrier = c.barrier
  channels : d.channels = c.channels

/-- Every request is admitted. -/
def anything (_ : Coordinator) (_ : Request) : Prop :=
  True

/-- One thing happens, of those that are admitted. -/
inductive Operates (admits : Coordinator → Request → Prop) :
    Coordinator → Moment → Coordinator → Prop where
  /-- Any request but one to settle, which is several others. -/
  | request {c : Coordinator} (request : Request) (hsettle : request ≠ .settle)
    (h : admits c request) : Operates admits c (momentOf request c) (perform request c).2
  /-- A tick arrives, also past the mailbox. -/
  | tick {c : Coordinator} (tick : TimeTick) : Operates admits c ⟨c, c.onTick tick, []⟩ (c.onTick tick)
  | waits {c d : Coordinator} (h : c.Waits d) : Operates admits c ⟨c, d, []⟩ d

/-- A new coordinator that no node has joined yet. -/
structure New (c : Coordinator) : Prop extends Initial c where
  registry : c.cluster.registry = {}
  outbox : c.cluster.outbox.isOpen = true
  barrier : c.barrier = {}
  channels : c.channels.groups = .empty

theorem Effect.mono (h : Effect marks goal c d) (hmarks : ∀ mark, marks mark → marks' mark) :
    Effect marks' goal c d := by
  cases h with
  | wrote h => exact .wrote h
  | recovered h => exact .recovered h
  | sealed sealed h hcluster hbarrier hchannels =>
    refine .sealed sealed ?_ hcluster hbarrier hchannels
    generalize d.allocator = b at h
    cases h with
    | onRequest collection => exact .onRequest collection
    | atMark h => exact .atMark (hmarks _ h)
  | moved h => exact .moved h
  | divided h => exact .divided h
  | watched collection groups h => exact .watched collection groups h
  | delivered h => exact .delivered h

section

variable {admits : Coordinator → Request → Prop} {moment : Moment} {moments : List Moment}

theorem Operates.before_eq (h : Operates admits c moment d) : moment.before = c := by
  cases h <;> rfl

theorem Operates.after_eq (h : Operates admits c moment d) : moment.after = d := by
  cases h <;> rfl

/-- A step that takes more than time has an effect; it seals at marks that are admitted or
published. -/
theorem Operates.effect (h : Operates admits c moment d) (hsound : c.allocator.Sound) :
    c.Waits d ∨ ∃ goal, goal ≠ some .sealed ∧
      Effect (fun mark => admits c (.watermark mark) ∨ mark = c.barrier.feed.latest) goal c d := by
  cases h with
  | request request hsettle hadmits =>
    refine .inr ⟨_, request.goal?_ne_sealed, (effect_perform request hsettle hsound).mono ?_⟩
    rintro mark (rfl | hmark)
    · exact .inl hadmits
    · exact .inr hmark
  | tick tick => exact .inr ⟨none, by simp, .moved (moves_onTick tick)⟩
  | waits h => exact .inl h

/-- The stored segments change by writes, if they change at all. -/
theorem Operates.history (h : Operates admits c moment d) (hsound : c.allocator.Sound) :
    ∃ writes, History c.allocator.segments writes d.allocator.segments := by
  rcases h.effect hsound with hwaits | ⟨goal, _, heffect⟩
  · exact ⟨[], hwaits.allocator.segments ▸ .nil _⟩
  · obtain ⟨_, ⟨writes, hevolves, _⟩, _⟩ := heffect.evolved
    exact ⟨writes, hevolves.history⟩

/-- Such a step is one of a run of the coordinator. -/
theorem Operates.step (h : Operates admits c moment d) : Step c moment.told d := by
  cases h with
  | request request _ _ => exact .request request
  | tick tick => exact .surroundings ⟨.refl _, fun _ hmem => hmem⟩
  | waits h => exact .surroundings ⟨h.allocator, fun _ hmem => h.outbox ▸ hmem⟩

theorem run_of_operates (h : Path (Operates admits) c moments d) :
    Run c (moments.flatMap Moment.told) d := by
  induction h with
  | nil => exact .nil _
  | snoc _ hstep ih =>
    simpa [Run] using ih.snoc hstep.step

theorem operates_of_mem (requests : List Request) (hsettle : .settle ∉ requests)
    (hadmits : ∀ request ∈ requests, ∀ c, admits c request) :
    ∀ request ∈ requests, ∀ c, Operates admits c (momentOf request c) (perform request c).2 :=
  fun request hmem c => .request request (ne_of_mem_of_not_mem hmem hsettle) (hadmits request hmem c)

/-- To settle is no step, but a run of its own if the duties are admitted. -/
theorem operates_settle (hadmits : ∀ request ∈ duties, ∀ c, admits c request) (c : Coordinator) :
    ∃ moments, Path (Operates admits) c moments c.settle :=
  exists_path_settle (operates_of_mem duties settle_notMem_duties hadmits) c

end

theorem new_onMemory : New onMemory :=
  ⟨initial_onMemory, rfl, rfl, rfl, rfl⟩

end IngestCoordinator.Coordinator
