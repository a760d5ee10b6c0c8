-- SUMMARY: After a crash in the middle of any request the store recovers what was promised.
import IngestCoordinator.Proofs.Coordinator.Runs

/-!
# Crashes

The process may die at any moment of any request. What the backend has taken until
then stays, what memory held is lost. To what stays it is the same as if the backend
had refused every call from that moment on; and what others could be told by a
process that goes on in vain they could be told by one that dies at once. After the
store has been opened again and recovered, all promises are kept.
-/

namespace IngestCoordinator.Coordinator

open Operation

variable {c d e : Coordinator} {events : List Event}

/-- The backend takes some more calls, and then none of the following. -/
def dying (calls refused : Nat) (c : Coordinator) : Coordinator :=
  { c with allocator.store.metadata.backend.refusals :=
      List.replicate calls false ++ List.replicate refused true }

/--
The process dies in the middle of a request, after some calls to the backend. Until
then it has answered what it could, and its commands may have reached the nodes.
-/
def crash (request : Request) (calls refused : Nat) (c : Coordinator) : List Event × Coordinator :=
  let (told, d) := perform request (c.dying calls refused)
  let (delivered, e) := perform .deliver d
  (told ++ delivered, e)

/-- A crash is a run in which the backend stops to answer. -/
theorem run_crash (request : Request) (calls refused : Nat) (c : Coordinator) :
    Run c (crash request calls refused c).1 (crash request calls refused c).2 := by
  have hdying : c.Surroundings (c.dying calls refused) :=
    ⟨⟨rfl, rfl, fun _ _ => rfl, rfl, rfl, rfl, rfl, rfl, rfl, rfl, rfl⟩, fun _ hmem => hmem⟩
  have hrun := ((Course.single (Step.surroundings hdying)).snoc (.request request)).snoc
    (.request .deliver)
  simpa [crash, Run] using hrun

/-- With a backend that takes calls a restart and a recovery always succeed. -/
theorem restart_recovers (hsound : c.Sound) (h : c.Surroundings d)
    (hwritable : d.allocator.store.Writable) :
    ∃ restarted count recovered, restart d = .ok () restarted ∧
      onAllocator Allocator.recover restarted = .ok count recovered := by
  have havailable := surroundings_available d
  have hsound' := havailable.sound (h.allocator.sound hsound.allocator.sound)
  have hwritable' : d.available.store.Writable :=
    ⟨⟨rfl, hwritable.healthy.unrefused, hwritable.healthy.table⟩, hwritable.update⟩
  have hreopen := Allocator.ensures_reopen hsound'
  cases hrestart : restart d with
  | error e restarted =>
    obtain ⟨a, hfailed⟩ := (ensures_restart d).error hrestart
    exact absurd hwritable'.healthy (hreopen.error hfailed)
  | ok _ restarted =>
    obtain ⟨a, hopened, hallocator, _⟩ := (ensures_restart d).ok hrestart
    obtain ⟨hextends, hkeeps⟩ := hreopen.ok hopened
    rw [← hallocator] at hextends hkeeps
    have hrecover := Allocator.ensures_recover hextends.sound.truthful hextends.sound.coherent
    cases hrecovered : onAllocator Allocator.recover restarted with
    | ok count recovered => exact ⟨restarted, count, recovered, rfl, hrecovered⟩
    | error e recovered =>
      obtain ⟨b, hfailed, _⟩ := (ensures_onAllocator Allocator.recover).error hrecovered
      exact absurd ⟨hextends.sound.coherent.toNumbered, hkeeps hwritable'⟩
        (hrecover.error hfailed).2

/-! ## A crash between two writes -/

/-- Does what is asked, one after another. -/
def performAll : List Request → Coordinator → List Event × Coordinator
  | [], c => ([], c)
  | request :: requests, c =>
    let (events, d) := perform request c
    let (events', e) := performAll requests d
    (events ++ events', e)

theorem run_performAll (requests : List Request) (c : Coordinator) :
    Run c (performAll requests c).1 (performAll requests c).2 := by
  induction requests generalizing c with
  | nil => exact .nil c
  | cons request requests ih => exact (Course.single (.request request)).append (ih _)

/-- A new coordinator over an empty store in memory, with segments of ten rows. -/
def onMemory : Coordinator :=
  create
    { segment := { sizeBytes := 80, grantLifetimeMs := 0 }
      channels := { perCollection := 1, insertStem := "channel-" } }
    { metadata := { backend := {}, root := ⟨"root"⟩, records := {} } }
    { foretold := [3, 5] }
    { ddChannel := "dd", collections := .empty }

theorem initial_onMemory : Initial onMemory where
  allocator := ⟨⟨{}, rfl⟩, rfl, ⟨rfl, rfl, rfl, rfl⟩, rfl, rfl, rfl⟩
  commands := rfl

/-- Asks for some rows on the only channel. -/
def assignRows (count : UInt64) : Request :=
  .assign [⟨⟨⟨1⟩, ⟨2⟩, "channel-1_0"⟩, count⟩]

/-- A collection and a node are added, and ten rows are granted. -/
def assigning : List Request :=
  [.addCollection ⟨⟨1⟩, ⟨"schema", [⟨"field", .int64, 0⟩]⟩, [⟨2⟩]⟩, .register "address" ⟨1⟩,
    .insertChannels ⟨1⟩, assignRows 10]

/--
The process dies while a second segment is opened: the first one, full, has just been
superseded, and its successor has not grown yet.
-/
def crashed : Coordinator :=
  (crash (assignRows 5) 2 9 (performAll assigning onMemory).2).2

/-- The coordinator over a backend that takes calls again. -/
def mended (c : Coordinator) : Coordinator :=
  { c with allocator.store.metadata.backend.refusals := [] }

theorem surroundings_mended (c : Coordinator) : c.Surroundings c.mended :=
  ⟨⟨rfl, rfl, fun _ _ => rfl, rfl, rfl, rfl, rfl, rfl, rfl, rfl, rfl⟩, fun _ hmem => hmem⟩

theorem writable_mended (hunavailable : c.allocator.store.metadata.backend.unavailable = false)
    (htable : c.allocator.store.metadata.backend.tableDropped = false)
    (hupdate : c.allocator.store.faults.update = .empty) : c.mended.allocator.store.Writable :=
  ⟨⟨hunavailable, rfl, htable⟩, hupdate⟩

/-! ## Promises -/

/--
What others were told holds of a coordinator that has been restarted: rows that were
granted stay granted, and what was sealed stays sealed, at a time that the watermark
has reached. The growing segments are tracked, one target for each key at most.
-/
structure Keeps (c : Coordinator) (told : List Event) : Prop where
  agrees : c.allocator.index.Agrees c.allocator.segments
  tracked : ∀ key id, (c.allocator.index.target? key = some id ∨
    id ∈ c.allocator.index.retired key) ↔
      ∃ segment, c.allocator.segments.get? id = some segment ∧ segment.key = key ∧
        segment.state = .growing
  oneTarget : ∀ id segment id' segment', c.allocator.segments.get? id = some segment →
    c.allocator.segments.get? id' = some segment' → segment.key = segment'.key →
    segment.state = .growing → segment.superseded = false →
    segment'.state = .growing → segment'.superseded = false → id = id'
  granted : ∀ returned ∈ grantedIn told, ∃ segment,
    c.allocator.segments.get? returned.grant.segment = some segment ∧
      returned.grant.offset.toNat + returned.grant.count.toNat ≤ segment.nextOffset.toNat ∧
      returned.grant.expireTime ≤ segment.lastExpireTime
  sealed : ∀ id, .sealed id ∈ told → ∃ segment, c.allocator.segments.get? id = some segment ∧
    (segment.state = .sealed ∨ segment.state = .flushed) ∧
      segment.sealedTime ≤ c.allocator.watermark

/-- Over a store that held no segment, the grants that others were told of add up. -/
theorem Run.accounts (h : Run c events d) (hinitial : c.Initial) :
    Accounts ((grantedIn events).map Allocator.Returned.grant) d.allocator.segments :=
  (h.tells hinitial.sound).proceeds.run.accounts hinitial.allocator

/-- In a restart nobody is told anything. -/
theorem Run.restart (h : Run c events d) (hrestarts : d.Restarts e) : Run c events e := by
  simpa [Run] using h.snoc (.restart hrestarts)

/-- After a run and a restart all promises of the run are kept. -/
theorem Run.keeps (h : Run c events d) (hinitial : c.Initial) (hrestarts : d.Restarts e) :
    e.Keeps events := by
  have hrun := h.restart hrestarts
  have hsound := (h.tells hinitial.sound).proceeds.sound
  have htells := hrun.tells hinitial.sound
  have hagrees := htells.proceeds.sound.allocator.agrees
  have hsealing := (hrestarts.allocator.1.extends hsound.allocator.sound).2.2
  refine ⟨hagrees, hagrees.tracked, ?_, fun returned hmem => ?_, fun id hmem => ?_⟩
  · intro id segment id' segment' hget hget' hkey hgrowing hopen hgrowing' hopen'
    exact hagrees.target_unique hget hget' hkey hgrowing hopen hgrowing' hopen'
  · exact (hrun.accounts hinitial).covered (List.mem_map_of_mem hmem)
  · obtain ⟨segment, hget, hclosed⟩ := htells.sealed id hmem
    refine ⟨segment, hget, ?_, hsealing id segment hget hclosed⟩
    cases hstate : segment.state with
    | sealed => exact .inl rfl
    | flushed => exact .inr rfl
    | new | growing =>
      rw [hstate] at hclosed
      cases hclosed

/-- Of two grants on a segment in one run the later starts where the earlier has ended. -/
theorem Run.ordered {later : List Event} (h : Run c events d) (hinitial : c.Initial)
    (h' : Run d later e) :
    ∀ returned ∈ grantedIn events, ∀ returned' ∈ grantedIn later,
      returned.grant.segment = returned'.grant.segment →
        returned.grant.offset.toNat + returned.grant.count.toNat ≤
          returned'.grant.offset.toNat := by
  intro returned hmem returned' hmem'
  have hrun : Run c (events ++ later) e := h.append h'
  have hordered := (hrun.accounts hinitial).ordered
  rw [grantedIn_append, List.map_append, List.pairwise_append] at hordered
  exact hordered.2.2 _ (List.mem_map_of_mem hmem) _ (List.mem_map_of_mem hmem')

/--
Whenever the process dies, after any call to the backend in any request, the store
can be opened and recovered as soon as the backend takes calls. Then all that others
were told before holds, and no row that was granted before is granted again.
-/
theorem crash_consistent (hinitial : c.Initial) (hrun : Run c events d) (request : Request)
    (calls refused : Nat) :
    (∀ e, (crash request calls refused d).2.Surroundings e → e.allocator.store.Writable →
      ∃ restarted count recovered, restart e = .ok () restarted ∧
        onAllocator Allocator.recover restarted = .ok count recovered) ∧
    ∀ e, (crash request calls refused d).2.Restarts e →
      e.Keeps (events ++ (crash request calls refused d).1) ∧
      ∀ later f, Run e later f →
        ∀ returned ∈ grantedIn (events ++ (crash request calls refused d).1),
          ∀ returned' ∈ grantedIn later, returned.grant.segment = returned'.grant.segment →
            returned.grant.offset.toNat + returned.grant.count.toNat ≤
              returned'.grant.offset.toNat := by
  have hcrash : Run c (events ++ (crash request calls refused d).1)
      (crash request calls refused d).2 := hrun.append (run_crash request calls refused d)
  have hsound := (hcrash.tells hinitial.sound).proceeds.sound
  refine ⟨fun e => restart_recovers hsound, fun e hrestarts => ?_⟩
  refine ⟨hcrash.keeps hinitial hrestarts, fun later f hlater => ?_⟩
  exact (hcrash.restart hrestarts).ordered hinitial hlater

/-- The ten rows that were granted before the crash are not lost in it. -/
theorem grant_survives_crash :
    ∃ recovered, crashed.Restarts recovered ∧
      ∃ segment, recovered.allocator.segments.get? ⟨1⟩ = some segment ∧
        10 ≤ segment.nextOffset.toNat ∧ 5 ≤ segment.lastExpireTime := by
  have htold : (performAll assigning onMemory).1 = [.granted ⟨10, ⟨⟨1⟩, 0, 10, 5⟩⟩] := by
    decide +kernel
  have hwritable : crashed.mended.allocator.store.Writable :=
    writable_mended (by decide +kernel) (by decide +kernel) (by decide +kernel)
  obtain ⟨hrecovers, hkeeps⟩ := crash_consistent initial_onMemory
    (run_performAll assigning onMemory) (assignRows 5) 2 9
  have hmended := surroundings_mended crashed
  obtain ⟨restarted, count, recovered, hrestart, hrecover⟩ :=
    hrecovers crashed.mended hmended hwritable
  have hrestarts : crashed.Restarts recovered :=
    ⟨_, _, hmended, .restarted hrestart, .inl ⟨count, hrecover⟩⟩
  have hmem : ⟨10, ⟨⟨1⟩, 0, 10, 5⟩⟩ ∈ grantedIn (performAll assigning onMemory).1 := by
    rw [htold]
    decide
  have hgranted := (hkeeps recovered hrestarts).1.granted ⟨10, ⟨⟨1⟩, 0, 10, 5⟩⟩
    (by rw [grantedIn_append]; exact List.mem_append_left _ hmem)
  exact ⟨recovered, hrestarts, hgranted⟩

end IngestCoordinator.Coordinator
