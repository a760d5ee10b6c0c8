-- SUMMARY: A subscriber who looks learns the watermark, and whether it has risen since the last look.
import IngestCoordinator.Proofs.Watermark
import Mathlib.Data.List.Induction

/-!
# Subscribers

Nodes join, leave and report while others subscribe to the watermark and look at it
from time to time. The feed has a number for each watermark that is published, and a
subscriber remembers no more than the number seen at the last look. That is enough:
the number has risen exactly when the watermark has, however often either has moved.
-/

namespace IngestCoordinator.Barrier

variable {a b : Barrier}

/-! ## The number of a watermark -/

/-- A barrier has stayed at its watermark and at the number of it, or has left both behind. -/
inductive Numbered (a b : Barrier) : Prop where
  | stayed (hwatermark : b.watermark = a.watermark) (hversion : b.feed.version = a.feed.version)
  | rose (hwatermark : a.watermark < b.watermark) (hversion : a.feed.version < b.feed.version)

theorem Current.numbered (h : a.Current) (hpublishes : a.Publishes b) : a.Numbered b := by
  cases hpublishes with
  | stays hwatermark hfeed => exact .stayed hwatermark (hfeed ▸ rfl)
  | rises hrises hfeed =>
    refine .rose hrises ?_
    rw [hfeed, h.publish hrises]
    exact Nat.lt_succ_self _

theorem Numbered.trans {c : Barrier} (h : a.Numbered b) (h' : b.Numbered c) : a.Numbered c := by
  cases h with
  | stayed hwatermark hversion =>
    cases h' with
    | stayed hwatermark' hversion' =>
      exact .stayed (hwatermark'.trans hwatermark) (hversion'.trans hversion)
    | rose hwatermark' hversion' => exact .rose (hwatermark ▸ hwatermark') (hversion ▸ hversion')
  | rose hwatermark hversion =>
    cases h' with
    | stayed hwatermark' hversion' => exact .rose (hwatermark' ▸ hwatermark) (hversion' ▸ hversion)
    | rose hwatermark' hversion' =>
      exact .rose (UInt64.lt_trans hwatermark hwatermark') (hversion.trans hversion')

theorem Reaches.numbered (h : a.Reaches b) (hcurrent : a.Current) : a.Numbered b := by
  induction h with
  | refl => exact .stayed rfl rfl
  | add h node ih => exact ih.trans ((h.current hcurrent).numbered (publishes_add _ node))
  | remove h node ih => exact ih.trans ((h.current hcurrent).numbered (publishes_remove _ node))
  | observe h tick ih => exact ih.trans ((h.current hcurrent).numbered (publishes_observe _ tick))

theorem Numbered.version_ne_iff (h : a.Numbered b) :
    a.feed.version ≠ b.feed.version ↔ a.watermark < b.watermark := by
  cases h with
  | stayed hwatermark hversion => simp [hwatermark, hversion]
  | rose hwatermark hversion => simp [hwatermark, hversion.ne]

/-- A look shows the watermark, and tells whether it has risen since the barrier that was seen. -/
theorem Current.poll (h : a.Current) (hreaches : a.Reaches b) :
    b.poll a.subscribe = (decide (a.watermark < b.watermark), b.watermark, b.subscribe) := by
  have hrisen := (hreaches.numbered h).version_ne_iff
  have hlatest : b.feed.latest = b.watermark := hreaches.current h
  simp only [Barrier.poll, subscribe, hrisen, hlatest]

/-! ## An audience -/

/-- A barrier, and those who have subscribed to it, in order of subscription. -/
structure Audience where
  barrier : Barrier := {}
  subscribers : List Subscriber := []
  deriving DecidableEq, Repr

/-- What is done: something happens to the barrier, somebody subscribes, or a subscriber looks. -/
inductive Act where
  | happens (event : Event)
  | subscribes
  | polls (subscriber : Nat)
  deriving DecidableEq, Repr

namespace Audience

variable {audience : Audience} {act : Act} {acts : List Act} {subscriber : Nat} {seen : Barrier}

/-- What a subscriber who looks is shown, and what becomes of the audience. -/
def poll (audience : Audience) (subscriber : Nat) : Option (Bool × Timestamp) × Audience :=
  match audience.subscribers[subscriber]? with
  | none => (none, audience)
  | some seen =>
    let (unseen, watermark, seen) := audience.barrier.poll seen
    (some (unseen, watermark),
      { audience with subscribers := audience.subscribers.set subscriber seen })

/-- What becomes of an audience when something is done. -/
def after (audience : Audience) : Act → Audience
  | .happens event => { audience with barrier := (event.happen audience.barrier).2 }
  | .subscribes =>
    { audience with subscribers := audience.subscribers ++ [audience.barrier.subscribe] }
  | .polls subscriber => (audience.poll subscriber).2

/-- What becomes of an audience in a run. -/
def afterwards (audience : Audience) (acts : List Act) : Audience :=
  acts.foldl after audience

/-- A subscriber looks, by subscribing or later on. -/
inductive Looks (audience : Audience) (subscriber : Nat) : Act → Prop where
  | subscribes (h : audience.subscribers.length = subscriber) : Looks audience subscriber .subscribes
  | polls (h : subscriber < audience.subscribers.length) :
    Looks audience subscriber (.polls subscriber)

/-- A subscriber has last looked at a barrier, from which the present one has come. -/
structure Saw (audience : Audience) (subscriber : Nat) (seen : Barrier) : Prop where
  subscriber : audience.subscribers[subscriber]? = some seen.subscribe
  current : seen.Current
  reaches : seen.Reaches audience.barrier

/-! ## Steps -/

theorem length_after (audience : Audience) (act : Act) :
    (audience.after act).subscribers.length =
      audience.subscribers.length + if act = .subscribes then 1 else 0 := by
  cases act with
  | happens event => simp [after]
  | subscribes => simp [after]
  | polls subscriber =>
    simp only [after, poll]
    split
    · simp
    · simp

theorem reaches_after (audience : Audience) (act : Act) :
    audience.barrier.Reaches (audience.after act).barrier := by
  cases act with
  | happens event => exact reaches_happen _ event
  | subscribes => exact .refl _
  | polls subscriber =>
    simp only [after, poll]
    split
    · exact .refl _
    · exact .refl _

/-- A look is at the barrier as it is. -/
theorem Looks.saw (h : audience.Looks subscriber act) (hcurrent : audience.barrier.Current) :
    (audience.after act).Saw subscriber audience.barrier := by
  refine ⟨?_, hcurrent, reaches_after audience act⟩
  cases h with
  | subscribes h => simp [after, ← h]
  | polls h => simp [after, poll, h, Barrier.poll, Barrier.subscribe]

/-- What others do, and what happens to the barrier, leaves a subscriber's last look alone. -/
theorem Saw.after (h : audience.Saw subscriber seen) (hother : act ≠ .polls subscriber) :
    (audience.after act).Saw subscriber seen := by
  refine ⟨?_, h.current, h.reaches.trans (reaches_after audience act)⟩
  cases act with
  | happens event => exact h.subscriber
  | subscribes =>
    have hlt := (List.getElem?_eq_some_iff.1 h.subscriber).1
    rw [Audience.after, List.getElem?_append_left hlt]
    exact h.subscriber
  | polls other =>
    have hne : other ≠ subscriber := fun heq => hother (heq ▸ rfl)
    simp only [Audience.after, poll]
    split
    · exact h.subscriber
    · rw [List.getElem?_set_ne hne]
      exact h.subscriber

/-- The last look is all that a look is compared with. -/
theorem Saw.poll (h : audience.Saw subscriber seen) : (audience.poll subscriber).1 =
    some (decide (seen.watermark < audience.barrier.watermark), audience.barrier.watermark) := by
  unfold Audience.poll
  rw [h.subscriber]
  simp only [h.current.poll h.reaches]

/-! ## Runs -/

theorem afterwards_append (audience : Audience) (before later : List Act) :
    audience.afterwards (before ++ later) = (audience.afterwards before).afterwards later :=
  List.foldl_append

theorem Saw.afterwards (h : audience.Saw subscriber seen) (hother : .polls subscriber ∉ acts) :
    (audience.afterwards acts).Saw subscriber seen := by
  induction acts generalizing audience with
  | nil => exact h
  | cons act acts ih =>
    obtain ⟨hact, hacts⟩ := List.ne_and_not_mem_of_not_mem_cons hother
    exact ih (h.after hact.symm) hacts

theorem current_afterwards (acts : List Act) (h : audience.barrier.Current) :
    (audience.afterwards acts).barrier.Current := by
  induction acts generalizing audience with
  | nil => exact h
  | cons act acts ih => exact ih ((reaches_after audience act).current h)

/-- Who has subscribed has looked, and among the looks there is a last one. -/
theorem exists_last_look (acts : List Act)
    (h : subscriber < (afterwards {} acts).subscribers.length) :
    ∃ before act later, acts = before ++ act :: later ∧
      (afterwards {} before).Looks subscriber act ∧ .polls subscriber ∉ later := by
  induction acts using List.reverseRecOn with
  | nil => cases h
  | append_singleton acts act ih =>
    rw [afterwards_append] at h
    have hlength := length_after (afterwards {} acts) act
    by_cases hlooks : (afterwards {} acts).Looks subscriber act
    · exact ⟨acts, act, [], rfl, hlooks, List.not_mem_nil⟩
    · -- The subscriber was there before, and has not looked now.
      have hbefore : subscriber < (afterwards {} acts).subscribers.length := by
        by_contra hge
        have hlt : subscriber < ((afterwards {} acts).after act).subscribers.length := h
        rw [hlength] at hlt
        split at hlt
        · rename_i heq
          exact hlooks (heq ▸ .subscribes (by omega))
        · omega
      have hother : act ≠ .polls subscriber := fun heq => hlooks (heq ▸ .polls hbefore)
      obtain ⟨before, look, later, hacts, hlook, hlater⟩ := ih hbefore
      refine ⟨before, look, later ++ [act], by rw [hacts]; simp, hlook, ?_⟩
      simp [hlater, hother.symm]

/-- In every run of a new barrier and its subscribers, every subscriber has a last look. A look
now shows the watermark as it is, and tells that it is unseen exactly when it has risen since
that last look. -/
theorem no_advance_is_lost (acts : List Act)
    (h : subscriber < (afterwards {} acts).subscribers.length) :
    (∃ before act later, acts = before ++ act :: later ∧
      (afterwards {} before).Looks subscriber act ∧ .polls subscriber ∉ later) ∧
    ∀ before act later, acts = before ++ act :: later →
      (afterwards {} before).Looks subscriber act → .polls subscriber ∉ later →
        let seen := (afterwards {} before).barrier.watermark
        let watermark := (afterwards {} acts).barrier.watermark
        ((afterwards {} acts).poll subscriber).1 = some (decide (seen < watermark), watermark) := by
  refine ⟨exists_last_look acts h, fun before act later hacts hlooks hlater => ?_⟩
  have hcurrent : (afterwards {} before).barrier.Current := current_afterwards before current_empty
  have hsaw := (hlooks.saw hcurrent).afterwards hlater
  subst hacts
  rw [afterwards_append]
  exact hsaw.poll

/-- Two subscribe; the watermark advances twice, the first looks in between. Each is told of
what has come since, and neither is told twice. -/
theorem lagging_subscriber_learns_latest :
    let acts := [.happens (.joins ⟨1⟩), .subscribes, .subscribes, .happens (.reports ⟨⟨1⟩, 10⟩),
      .polls 0, .happens (.reports ⟨⟨1⟩, 20⟩)]
    ((afterwards {} acts).poll 0).1 = some (true, 20) ∧
      ((afterwards {} acts).poll 1).1 = some (true, 20) ∧
      ((afterwards {} (acts ++ [.polls 1])).poll 1).1 = some (false, 20) := by
  intro acts
  have hfirst : 0 < (afterwards {} acts).subscribers.length := by decide
  have hsecond : 1 < (afterwards {} acts).subscribers.length := by decide
  have hagain : 1 < (afterwards {} (acts ++ [.polls 1])).subscribers.length := by decide
  refine ⟨?_, ?_, ?_⟩
  · exact (no_advance_is_lost acts hfirst).2 (acts.take 4) (.polls 0) (acts.drop 5) rfl
      (.polls (by decide)) (by decide)
  · exact (no_advance_is_lost acts hsecond).2 (acts.take 2) .subscribes (acts.drop 3) rfl
      (.subscribes (by decide)) (by decide)
  · exact (no_advance_is_lost (acts ++ [.polls 1]) hagain).2 acts (.polls 1) [] rfl
      (.polls (by decide)) (by decide)

end Audience

end IngestCoordinator.Barrier
