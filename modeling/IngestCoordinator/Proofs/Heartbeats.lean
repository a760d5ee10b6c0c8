-- SUMMARY: A registered node is known by its latest heartbeat, whichever way it has been heard of.
import IngestCoordinator.Proofs.Cluster.Giving

/-!
# Heartbeats

A node is heard of when its address is registered, for the first time or again, and when
a tick carries its number. The times of all this are kept in a log that knows nothing of
who is registered. The registry keeps one time for each node; along any run it is the
time of the last entry in the log that is about the node.
-/

namespace IngestCoordinator

/-- How a node has been heard of. -/
inductive Sign where
  | registered (address : String)
  | ticked (node : NodeId)
  deriving DecidableEq, Repr

/-- That some node has been heard of at a time. -/
structure Heartbeat where
  sign : Sign
  time : Nat
  deriving DecidableEq, Repr

namespace Heartbeat

/-- Whether it is this node that has been heard of. -/
def isOf (info : NodeInfo) (heartbeat : Heartbeat) : Bool :=
  match heartbeat.sign with
  | .registered address => address == info.address
  | .ticked node => node == info.id

/-- The time of the latest heartbeat of a node in a log; not every entry is a heartbeat. -/
def latest (log : List (Option Heartbeat)) (info : NodeInfo) : Option Nat :=
  (((log.filterMap id).filter (isOf info)).getLast?).map Heartbeat.time

/-- The time at which a node has been heard of in one entry. -/
def heard (entry : Option Heartbeat) (info : NodeInfo) : Option Nat :=
  latest [entry] info

@[simp] theorem heard_none (info : NodeInfo) : heard none info = none := rfl

theorem heard_some (heartbeat : Heartbeat) (info : NodeInfo) :
    heard (some heartbeat) info = if heartbeat.isOf info then some heartbeat.time else none := by
  cases h : heartbeat.isOf info <;> simp [heard, latest, h]

theorem latest_append (log : List (Option Heartbeat)) (entry : Option Heartbeat)
    (info : NodeInfo) :
    latest (log ++ [entry]) info = (heard entry info).or (latest log info) := by
  simp only [heard, latest, List.filterMap_append, List.filter_append, List.getLast?_append]
  cases (([entry].filterMap id).filter (isOf info)).getLast? with
  | none => rfl
  | some heartbeat => rfl

end Heartbeat

/-- The member is the same but for its groups. -/
def Member.Agrees (old member : Member) : Prop :=
  member.info.id = old.info.id ∧ member.info.address = old.info.address ∧
    member.lastHeartbeat = old.lastHeartbeat

namespace Registry

open Operation Heartbeat

variable {a b : Registry} {entry : Option Heartbeat} {log : List (Option Heartbeat)}
  {now timeoutMs : Nat} {id : NodeId}

/-- Every member has just been heard of, or was there before and was not. -/
def Hears (entry : Option Heartbeat) (a b : Registry) : Prop :=
  ∀ id member, b.members.get? id = some member →
    heard entry member.info = some member.lastHeartbeat ∨
    heard entry member.info = none ∧ ∃ old, a.members.get? id = some old ∧ old.Agrees member

/-- The log tells when each member was last heard of. -/
def LoggedIn (log : List (Option Heartbeat)) (registry : Registry) : Prop :=
  ∀ id member, registry.members.get? id = some member →
    latest log member.info = some member.lastHeartbeat

theorem loggedIn_empty : LoggedIn log {} :=
  fun _ _ hget => nomatch hget

theorem latest_of_agrees {old member : Member} (h : old.Agrees member) :
    latest log member.info = latest log old.info := by
  have hisOf : isOf member.info = isOf old.info := by
    funext heartbeat
    simp only [isOf, h.1, h.2.1]
  simp only [latest, hisOf]

/-- What holds of the log goes on to hold with the entry. -/
theorem Hears.loggedIn (h : Hears entry a b) (hlog : LoggedIn log a) :
    LoggedIn (log ++ [entry]) b := by
  intro id member hget
  rw [latest_append]
  rcases h id member hget with hheard | ⟨hnone, old, hold, hagrees⟩
  · rw [hheard, Option.some_or]
  · rw [hnone, Option.none_or, latest_of_agrees hagrees, hlog id old hold, hagrees.2.2]

theorem loggedIn_append_none : LoggedIn (log ++ [none]) a ↔ LoggedIn log a := by
  simp [LoggedIn, latest_append]

/-! ## Single calls -/

theorem Hears.refl (a : Registry) : Hears none a a :=
  fun _ member hget => .inr ⟨rfl, member, hget, rfl, rfl, rfl⟩

/-- Members may go unheard. -/
theorem hears_of_subset (h : ∀ id member, b.members.get? id = some member →
    a.members.get? id = some member) : Hears none a b :=
  fun id member hget => .inr ⟨rfl, member, h id member hget, rfl, rfl, rfl⟩

/-- The node that is touched has been heard of, however that came about. -/
theorem hears_touch_of_sign (heartbeat : Heartbeat) {id : NodeId}
    (hof : ∀ node member, a.members.get? node = some member →
      (heartbeat.isOf member.info = true ↔ node = id)) :
    Hears (some heartbeat) a (a.touch heartbeat.time id) := by
  have hunheard {node : NodeId} {member : Member} (hget : a.members.get? node = some member)
      (hother : node ≠ id) : heard (some heartbeat) member.info = none := by
    have hnot : ¬ heartbeat.isOf member.info = true := (hof node member hget).not.2 hother
    simp [heard_some, hnot]
  intro node member hget
  unfold touch at hget
  split at hget
  · rename_i hnone
    have hother : node ≠ id := by
      rintro rfl
      rw [hnone] at hget
      cases hget
    exact .inr ⟨hunheard hget hother, member, hget, rfl, rfl, rfl⟩
  · rename_i old hold
    rcases SortedMap.get?_insert_cases hget with ⟨rfl, rfl⟩ | ⟨hother, hget⟩
    · have his : heartbeat.isOf old.info = true := (hof _ old hold).2 rfl
      exact .inl (by simp [heard_some, his])
    · exact .inr ⟨hunheard hget hother, member, hget, rfl, rfl, rfl⟩

/-- A tick is a heartbeat of the node whose number it carries, if that is registered. -/
theorem hears_touch (hnumbered : a.Numbered) (now : Nat) (id : NodeId) :
    Hears (some ⟨.ticked id, now⟩) a (a.touch now id) := by
  apply hears_touch_of_sign ⟨.ticked id, now⟩
  intro node member hget
  rw [isOf, beq_iff_eq, hnumbered node member hget]
  exact eq_comm

theorem node?_of_get? {id : NodeId} {member : Member} (hget : a.members.get? id = some member) :
    a.node? id = some member.info := by
  rw [node?, hget, Option.map_some]

theorem get?_of_memberAt? (hnumbered : a.Numbered) {address : String} {known : Member}
    (h : a.memberAt? address = some known) :
    a.members.get? known.info.id = some known ∧ known.info.address = address := by
  obtain ⟨id, hget⟩ := SortedMap.mem_values_iff.1 (List.mem_of_find?_eq_some h)
  obtain rfl := hnumbered id known hget
  have hmatches := List.find?_some h
  exact ⟨hget, beq_iff_eq.1 hmatches⟩

/-- Registering is a heartbeat of the node at the address, whichever number was asked for. -/
theorem ensures_register_hears (now : Nat) (address : String) (id : NodeId) (haligned : a.Aligned) :
    Ensures (register now address id) a
      (fun _ b => Hears (some ⟨.registered address, now⟩) a b) (fun _ b => b = a) := by
  simp only [register, ensures_bind, ensures_get]
  split
  · rename_i known hknown
    apply hears_touch_of_sign ⟨.registered address, now⟩
    obtain ⟨hat, hknown⟩ := get?_of_memberAt? haligned.sound.toNumbered hknown
    intro node member hget
    rw [isOf, beq_iff_eq]
    constructor
    · intro haddress
      exact haligned.addresses (node?_of_get? hget) (node?_of_get? hat)
        (haddress.symm.trans hknown.symm)
    · rintro rfl
      rw [hget] at hat
      cases hat
      exact hknown.symm
  · rename_i hfree
    split
    · rfl
    · intro node member hget
      rcases SortedMap.get?_insert_cases hget with ⟨rfl, rfl⟩ | ⟨-, hget⟩
      · exact .inl (by simp [heard_some, isOf])
      · have hother := address_ne_of_memberAt? hfree (node?_of_get? hget)
        exact .inr ⟨by simp [heard_some, isOf, hother.symm], member, hget, rfl, rfl, rfl⟩

theorem ensures_deregister_hears (id : NodeId) :
    Ensures (deregister id) a (fun _ b => Hears none a b) (fun _ b => b = a) := by
  simp only [deregister, ensures_bind, ensures_get]
  split
  · rfl
  · exact hears_of_subset fun _ _ hget => SortedMap.get?_of_get?_erase hget

/-- Groups are given to members without anybody being heard of. -/
theorem Given.hears {new : List ChannelGroup} (h : a.Given new b) : Hears none a b := by
  intro id member hget
  rw [h.get?, Option.map_eq_some_iff] at hget
  obtain ⟨old, hold, rfl⟩ := hget
  exact .inr ⟨rfl, old, hold, rfl, rfl, rfl⟩

/-! ## Who is silent -/

/-- The silent nodes are the numbers of those members whose last heartbeat is too long ago. -/
theorem silentNodes_eq (hnumbered : a.Numbered) : a.silentNodes now timeoutMs =
    (a.members.filter fun _ member => timeoutMs < now - member.lastHeartbeat).keys := by
  have hsilent (member : Member) : (Member.health member now timeoutMs == Health.silent) =
      decide (timeoutMs < now - member.lastHeartbeat) := by
    unfold Member.health
    split
    · rename_i hlate
      rw [decide_eq_true hlate]
      rfl
    · rename_i hlate
      rw [decide_eq_false hlate]
      rfl
  simp only [silentNodes, health, SortedMap.values, SortedMap.keys, SortedMap.filter, List.map_map,
    List.filter_map, Function.comp_def, hsilent]
  apply List.map_congr_left
  intro entry hmem
  exact hnumbered entry.1 entry.2 (SortedMap.mem_toList_iff.1 (List.mem_filter.1 hmem).1)

theorem mem_silentNodes_iff (hnumbered : a.Numbered) : id ∈ a.silentNodes now timeoutMs ↔
    ∃ member, a.members.get? id = some member ∧ member.lastHeartbeat + timeoutMs < now := by
  simp only [silentNodes_eq hnumbered, SortedMap.mem_keys_iff, SortedMap.get?_filter,
    Option.filter_eq_some_iff, decide_eq_true_eq]
  refine exists_congr fun member => and_congr_right fun _ => ?_
  omega

theorem ascending_silentNodes (hnumbered : a.Numbered) :
    (a.silentNodes now timeoutMs).Pairwise fun id id' => compare id id' = .lt := by
  rw [silentNodes_eq hnumbered]
  exact List.pairwise_map.2 (SortedMap.ascending _)

end Registry

end IngestCoordinator
