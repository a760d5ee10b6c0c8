-- SUMMARY: What flush commands name, and what is queued by posting.
import IngestCoordinator.Cluster
import IngestCoordinator.Proofs.SortedMap
import Mathlib.Data.List.Induction

/-!
# Commands

A flush command names segments that its makers were given, and no others. Posting
adds commands to the queue and changes none of those that wait in it.
-/

namespace IngestCoordinator

/-- The segments that a command asks to flush. -/
def Command.segments : Command → List SegmentId
  | .watch _ _ => []
  | .flush _ _ segments => segments

/-- The command asks to flush only segments with the property. -/
def Command.Names (p : SegmentId → Prop) (command : Command) : Prop :=
  ∀ id ∈ command.segments, p id

theorem Command.Names.imp {p q : SegmentId → Prop} {command : Command} (h : command.Names p)
    (himp : ∀ id, p id → q id) : command.Names q :=
  fun id hmem => himp id (h id hmem)

namespace Registry

variable {registry : Registry} {segments : List Segment} {target : FlushTarget} {command : Command}

/-- Those of some segments that are of the target's collection and that its node is to store. -/
def batchFor (registry : Registry) (segments : List Segment) (target : FlushTarget) :
    List Segment :=
  segments.filter fun segment =>
    registry.flusherOf segment == some target.node && segment.collection == target.collection

theorem mem_batchFor {segment : Segment} : segment ∈ registry.batchFor segments target ↔
    segment ∈ segments ∧ registry.flusherOf segment = some target.node ∧
      segment.collection = target.collection := by
  simp [batchFor]

/-- A target has a batch if there is something to store, and that is what is in it. -/
theorem get?_flushBatches (segments : List Segment) (target : FlushTarget) :
    (registry.flushBatches segments).get? target =
      if registry.batchFor segments target = [] then none
      else some ((registry.batchFor segments target).map Segment.id) := by
  induction segments using List.reverseRecOn with
  | nil => rfl
  | append_singleton segments segment ih =>
    cases hflusher : registry.flusherOf segment with
    | none =>
      have hbatches : registry.flushBatches (segments ++ [segment]) =
          registry.flushBatches segments := by
        simp [flushBatches, hflusher]
      have hbatch : registry.batchFor (segments ++ [segment]) target =
          registry.batchFor segments target := by
        simp [batchFor, hflusher]
      rw [hbatches, hbatch, ih]
    | some node =>
      have hbatches : registry.flushBatches (segments ++ [segment]) =
          (registry.flushBatches segments).insert ⟨node, segment.collection⟩
            (((registry.flushBatches segments).get? ⟨node, segment.collection⟩).getD [] ++
              [segment.id]) := by
        simp [flushBatches, hflusher]
      rw [hbatches, SortedMap.get?_insert]
      split
      · rename_i htarget
        subst htarget
        have hbatch : registry.batchFor (segments ++ [segment]) ⟨node, segment.collection⟩ =
            registry.batchFor segments ⟨node, segment.collection⟩ ++ [segment] := by
          simp [batchFor, hflusher]
        rw [hbatch, ih]
        split <;> simp_all
      · rename_i htarget
        have hbatch : registry.batchFor (segments ++ [segment]) target =
            registry.batchFor segments target := by
          have hother : ¬ (node = target.node ∧ segment.collection = target.collection) :=
            fun h => htarget (by rw [h.1, h.2])
          simpa [batchFor, hflusher] using hother
        rw [hbatch, ih]

/-- A flush command goes to the registered node of a target, and names what it is to store. -/
theorem mem_flushCommands : command ∈ registry.flushCommands segments ↔
    ∃ target info, registry.node? target.node = some info ∧
      registry.batchFor segments target ≠ [] ∧
      command = .flush info target.collection
        ((registry.batchFor segments target).map Segment.id) := by
  simp only [flushCommands, List.mem_filterMap, Prod.exists, SortedMap.mem_toList_iff,
    get?_flushBatches]
  constructor
  · rintro ⟨target, ids, hbatch, hcommand⟩
    split at hbatch
    · cases hbatch
    · rename_i hne
      cases hbatch
      cases hnode : registry.node? target.node with
      | none => simp [flushCommand, hnode, Except.toOption] at hcommand
      | some info =>
        refine ⟨target, info, hnode, hne, ?_⟩
        simpa [flushCommand, hnode, Except.toOption, eq_comm] using hcommand
  · rintro ⟨target, info, hnode, hne, rfl⟩
    exact ⟨target, _, if_neg hne, by simp [flushCommand, hnode, Except.toOption]⟩

/-- Flush commands name segments that are to be flushed. -/
theorem names_of_mem_flushCommands {p : SegmentId → Prop} (h : ∀ segment ∈ segments, p segment.id)
    (hmem : command ∈ registry.flushCommands segments) : command.Names p := by
  obtain ⟨target, info, -, -, rfl⟩ := mem_flushCommands.1 hmem
  intro id hid
  obtain ⟨segment, hsegment, rfl⟩ := List.mem_map.1 hid
  exact h segment (mem_batchFor.1 hsegment).1

end Registry

theorem Outbox.mem_post {outbox : Outbox} {command posted : Command}
    (hmem : command ∈ (outbox.post posted).queued) :
    command ∈ outbox.queued ∨ command = posted := by
  unfold post at hmem
  split at hmem
  · simpa using hmem
  · exact .inl hmem

theorem Outbox.foldl_post (commands : List Command) {outbox : Outbox}
    (hopen : outbox.isOpen = true) :
    commands.foldl Outbox.post outbox = { outbox with queued := outbox.queued ++ commands } := by
  induction commands generalizing outbox with
  | nil => simp
  | cons command commands ih =>
    have hpost : outbox.post command = { outbox with queued := outbox.queued ++ [command] } := by
      rw [Outbox.post, if_pos hopen]
    have hrest := @ih { outbox with queued := outbox.queued ++ [command] } hopen
    rw [List.foldl_cons, hpost, hrest]
    simp

theorem Outbox.foldl_post_of_closed (commands : List Command) {outbox : Outbox}
    (hclosed : outbox.isOpen = false) : commands.foldl Outbox.post outbox = outbox := by
  induction commands with
  | nil => rfl
  | cons command commands ih =>
    rw [List.foldl_cons, Outbox.post, hclosed]
    exact ih

namespace Cluster

/-- An open queue gains what is posted, in order. -/
theorem post_of_open {cluster : Cluster} (hopen : cluster.outbox.isOpen = true)
    (commands : List Command) :
    cluster.post commands = { cluster with outbox.queued := cluster.outbox.queued ++ commands } := by
  rw [post, Outbox.foldl_post commands hopen]

/-- A closed one gains nothing. -/
theorem post_of_closed {cluster : Cluster} (hclosed : cluster.outbox.isOpen = false)
    (commands : List Command) : cluster.post commands = cluster := by
  rw [post, Outbox.foldl_post_of_closed commands hclosed]

theorem mem_outbox_foldl (commands : List Command) {outbox : Outbox} {command : Command}
    (hmem : command ∈ (commands.foldl Outbox.post outbox).queued) :
    command ∈ outbox.queued ∨ command ∈ commands := by
  induction commands generalizing outbox with
  | nil => exact .inl hmem
  | cons posted commands ih =>
    rcases ih hmem with hmem | hmem
    · rcases Outbox.mem_post hmem with hmem | rfl
      · exact .inl hmem
      · exact .inr List.mem_cons_self
    · exact .inr (List.mem_cons_of_mem _ hmem)

/-- What is queued after posting was queued before or has been posted. -/
theorem mem_post {cluster : Cluster} {commands : List Command} {command : Command}
    (hmem : command ∈ (cluster.post commands).outbox.queued) :
    command ∈ cluster.outbox.queued ∨ command ∈ commands :=
  mem_outbox_foldl commands hmem

end Cluster

end IngestCoordinator
