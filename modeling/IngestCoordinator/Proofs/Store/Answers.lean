-- SUMMARY: What a healthy backend answers to a list of calls depends on its entries alone.
import IngestCoordinator.Proofs.SortedMap
import IngestCoordinator.Proofs.Store.Calls
import IngestCoordinator.Proofs.Utf8

/-!
# Answers

The interface of a store is five calls. A healthy backend answers each of them from its
entries, and afterwards it is healthy and its entries are changed as the call says. Where
it keeps the entries does not show, neither in the answer nor in the change, so the same
holds of a list of calls. A scan gives the entries whose key begins with the stem, in the
order of the bytes of their keys.
-/

namespace IngestCoordinator.Backend

variable {b : Backend} {medium : Medium} {entries : SortedMap String Bytes} {α : Type}

/-- A call of the interface. -/
inductive Call where
  | get (key : String)
  | put (key : String) (value : Bytes)
  | delete (key : String)
  | compareAndPut (key : String) (expected : Option Bytes) (value : Bytes)
  | scan (stem : String)

/-- What a call is answered. -/
inductive Answer where
  | found (value : Option Bytes)
  | done
  | wrote (written : Bool)
  | listed (found : List (String × Bytes))
  | failed (error : Error)
  deriving DecidableEq

/-- The outcome of an operation as an answer. -/
def answered (make : α → Answer) (operation : Operation Backend α) (b : Backend) :
    Answer × Backend :=
  match operation b with
  | .ok a b' => (make a, b')
  | .error e b' => (.failed e, b')

def perform : Call → Backend → Answer × Backend
  | .get key => answered .found (get? key)
  | .put key value => answered (fun _ => .done) (put key value)
  | .delete key => answered (fun _ => .done) (delete key)
  | .compareAndPut key expected value => answered .wrote (compareAndPut key expected value)
  | .scan stem => answered .listed (scan stem)

def performAll : List Call → Backend → List Answer × Backend
  | [], b => ([], b)
  | call :: calls, b =>
    let (answer, b') := perform call b
    let (answers, b'') := performAll calls b'
    (answer :: answers, b'')

/-! ## What the entries answer -/

/-- The entries whose key begins with a stem. -/
def below (stem : String) (entries : SortedMap String Bytes) : List (String × Bytes) :=
  entries.toList.filter fun entry => startsWith stem entry.1

/-- What a call is answered where nothing is refused. -/
def reply (entries : SortedMap String Bytes) : Call → Answer
  | .get key => .found (entries.get? key)
  | .put _ _ => .done
  | .delete _ => .done
  | .compareAndPut key expected _ => .wrote (entries.get? key = expected)
  | .scan stem => .listed (below stem entries)

/-- What a call makes of the entries. -/
def after (entries : SortedMap String Bytes) : Call → SortedMap String Bytes
  | .get _ => entries
  | .put key value => entries.insert key value
  | .delete key => entries.erase key
  | .compareAndPut key expected value =>
    if entries.get? key = expected then entries.insert key value else entries
  | .scan _ => entries

def replies (entries : SortedMap String Bytes) : List Call → List Answer
  | [] => []
  | call :: calls => reply entries call :: replies (after entries call) calls

def afterAll (entries : SortedMap String Bytes) (calls : List Call) : SortedMap String Bytes :=
  calls.foldl after entries

theorem startsWith_iff {stem key : String} :
    startsWith stem key = true ↔ Bytes.ofString stem <+: Bytes.ofString key := by
  rw [startsWith, List.isPrefixOf_iff_prefix, Bytes.ofString_prefix_ofString_iff]

theorem mem_below_iff {stem key : String} {value : Bytes} :
    (key, value) ∈ below stem entries ↔
      entries.get? key = some value ∧ Bytes.ofString stem <+: Bytes.ofString key := by
  rw [below, List.mem_filter, SortedMap.mem_toList_iff, startsWith_iff]

theorem ascending_below (stem : String) (entries : SortedMap String Bytes) :
    (below stem entries).Pairwise fun a b => Bytes.ofString a.1 < Bytes.ofString b.1 :=
  (entries.ascending.filter _).imp fun hlt =>
    Bytes.ofString_lt_ofString_iff.2 (compare_eq_lt_iff.1 hlt)

/-! ## What a healthy backend answers -/

/-- A healthy backend of this kind with these entries. -/
structure Keeps (b : Backend) (medium : Medium) (entries : SortedMap String Bytes) : Prop where
  medium_eq : b.medium = medium
  healthy : b.Healthy
  entries_eq : b.entries = entries.map fun _ value => .bytes value

theorem Healthy.afterCall_eq (h : b.Healthy) : b.afterCall = b := by
  have hrefusals := h.unrefused
  obtain ⟨medium, entries, unavailable, dropped, refusals, losses⟩ := b
  dsimp only at hrefusals
  rw [hrefusals]
  rfl

theorem Healthy.call_eq (h : b.Healthy) (answer : Backend → α × Backend) :
    call answer b = .ok (answer b).1 (answer b).2 := by
  refine Operation.eq_ok_of_ensures (ensures_call ?_ fun e hrefuses => hrefuses.not_healthy h)
  rw [h.afterCall_eq]
  exact ⟨rfl, rfl⟩

theorem Healthy.read_eq (h : b.Healthy) {answer : Backend → Except Error α} {a : α}
    (hanswer : answer b = .ok a) : read answer b = .ok a b := by
  refine Operation.eq_ok_of_ensures ?_
  rw [read, Operation.ensures_bind, Operation.ensures_of_ok (h.call_eq _), hanswer]
  exact ⟨rfl, rfl⟩

namespace Keeps

theorem get?_eq (h : b.Keeps medium entries) (key : String) :
    b.entries.get? key = (entries.get? key).map .bytes := by
  rw [h.entries_eq, SortedMap.get?_map]

theorem insert (h : b.Keeps medium entries) (key : String) (value : Bytes) :
    Keeps { b with entries := b.entries.insert key (.bytes value) } medium
      (entries.insert key value) where
  medium_eq := h.medium_eq
  healthy := ⟨h.healthy.available, h.healthy.unrefused, h.healthy.table⟩
  entries_eq := by
    refine SortedMap.ext_get? fun key' => ?_
    rw [SortedMap.get?_insert, h.get?_eq, SortedMap.get?_map, SortedMap.get?_insert]
    split <;> rfl

theorem erase (h : b.Keeps medium entries) (key : String) :
    Keeps { b with entries := b.entries.erase key } medium (entries.erase key) where
  medium_eq := h.medium_eq
  healthy := ⟨h.healthy.available, h.healthy.unrefused, h.healthy.table⟩
  entries_eq := by
    refine SortedMap.ext_get? fun key' => ?_
    rw [SortedMap.get?_erase, h.get?_eq, SortedMap.get?_map, SortedMap.get?_erase]
    split <;> rfl

theorem scan_eq (h : b.Keeps medium entries) (stem : String) :
    scan stem b = .ok (below stem entries) b := by
  have hfilter : scanFilter stem b.entries.toList =
      (below stem entries).map fun entry => (entry.1, Cell.bytes entry.2) := by
    rw [h.entries_eq, scanFilter, SortedMap.map, List.filter_map, below]
    rfl
  rw [Backend.scan_eq]
  refine h.healthy.read_eq ?_
  rw [mapM_eq_ok_iff, hfilter, List.forall₂_map_left_iff, List.forall₂_same]
  exact fun entry hmem => rfl

/-- A call is answered from the entries, and changes them as it says. -/
theorem perform (h : b.Keeps medium entries) (call : Call) :
    (perform call b).1 = reply entries call ∧
      (perform call b).2.Keeps medium (after entries call) := by
  cases call with
  | get key =>
    have hread : get? key b = .ok (entries.get? key) b := by
      refine h.healthy.read_eq ?_
      rw [h.get?_eq]
      cases entries.get? key <;> rfl
    rw [Backend.perform, answered, hread]
    exact ⟨rfl, h⟩
  | put key value =>
    rw [Backend.perform, answered, put, h.healthy.call_eq]
    exact ⟨rfl, h.insert key value⟩
  | delete key =>
    rw [Backend.perform, answered, delete, h.healthy.call_eq]
    exact ⟨rfl, h.erase key⟩
  | compareAndPut key expected value =>
    have hcell : (entries.get? key).map Cell.bytes = expected.map .bytes ↔
        entries.get? key = expected :=
      (Option.map_injective fun _ _ => Cell.bytes.inj).eq_iff
    rw [Backend.perform, answered, compareAndPut, h.healthy.call_eq, h.get?_eq, reply, after]
    simp only [hcell]
    by_cases hexpected : entries.get? key = expected
    · rw [if_pos hexpected, if_pos hexpected, decide_eq_true hexpected]
      exact ⟨rfl, h.insert key value⟩
    · rw [if_neg hexpected, if_neg hexpected, decide_eq_false hexpected]
      exact ⟨rfl, h⟩
  | scan stem =>
    rw [Backend.perform, answered, h.scan_eq]
    exact ⟨rfl, h⟩

/-- So is a list of calls. -/
theorem performAll (h : b.Keeps medium entries) (calls : List Call) :
    (performAll calls b).1 = replies entries calls ∧
      (performAll calls b).2.Keeps medium (afterAll entries calls) := by
  induction calls generalizing b entries with
  | nil => exact ⟨rfl, h⟩
  | cons call calls ih =>
    obtain ⟨hanswer, hkeeps⟩ := h.perform call
    obtain ⟨hanswers, hfinally⟩ := ih hkeeps
    refine ⟨?_, hfinally⟩
    rw [replies, ← hanswer, ← hanswers]
    rfl

end Keeps

end IngestCoordinator.Backend
