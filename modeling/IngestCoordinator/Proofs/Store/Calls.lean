-- SUMMARY: What calls to a backend do: health, writes, and fetching all records below a stem.
import IngestCoordinator.Proofs.Operation
import IngestCoordinator.Proofs.Store.Scan
import IngestCoordinator.Store.Metadata
import Mathlib.Data.List.Forall2

/-!
# Calls to a backend

A healthy backend refuses no call and stays healthy. On any other a call may fail,
and then the entries are what they were. Fetching, a scan whose cells are decoded,
finds one record for each entry below a stem, and succeeds if all can be decoded.
-/

namespace IngestCoordinator

open Operation

namespace Backend

/-- No call is refused. -/
structure Healthy (backend : Backend) : Prop where
  available : backend.unavailable = false
  unrefused : backend.refusals = []
  table : backend.tableDropped = false

/-- The entries stand as they stood, and conditional writes lose as often as before. -/
structure Same (backend backend' : Backend) : Prop where
  entries : backend'.entries = backend.entries
  losses : backend'.losses = backend.losses
  healthy : backend.Healthy → backend'.Healthy

variable {b : Backend} {α : Type}

theorem Healthy.fault? (h : b.Healthy) : b.fault? = none := by
  simp [Backend.fault?, h.available, h.unrefused, h.table]

theorem Healthy.afterCall (h : b.Healthy) : b.afterCall.Healthy where
  available := h.available
  unrefused := by simp [Backend.afterCall, h.unrefused]
  table := h.table

theorem same_afterCall (b : Backend) : b.Same b.afterCall :=
  ⟨rfl, rfl, Healthy.afterCall⟩

/-- The next call is refused, with this error. -/
def Refuses (b : Backend) (e : Error) : Prop :=
  ∃ fault, b.fault? = some fault ∧ e = .storeUnavailable fault

theorem Refuses.not_healthy {e : Error} (h : b.Refuses e) : ¬ b.Healthy := by
  obtain ⟨fault, hfault, _⟩ := h
  intro hhealthy
  rw [hhealthy.fault?] at hfault
  cases hfault

/-- A call is answered, or it is refused and only used up. -/
theorem ensures_call {answer : Backend → α × Backend} {done : α → Backend → Prop}
    {failed : Error → Backend → Prop} (hdone : done (answer b.afterCall).1 (answer b.afterCall).2)
    (hfailed : ∀ e, b.Refuses e → failed e b.afterCall) :
    Ensures (call answer) b done failed := by
  rw [call, ensures_bind, ensures_get]
  split
  · rename_i fault hfault
    simpa using hfailed _ ⟨fault, hfault, rfl⟩
  · simpa using hdone

theorem ensures_put (key : String) (value : Bytes) : Ensures (put key value) b
    (fun _ b' => b'.entries = b.entries.insert key (.bytes value) ∧ (b.Healthy → b'.Healthy))
    (fun _ b' => b.Same b' ∧ ¬ b.Healthy) := by
  refine ensures_call ⟨rfl, fun h => ?_⟩ fun _ hrefuses => ⟨same_afterCall b, hrefuses.not_healthy⟩
  exact ⟨h.afterCall.available, h.afterCall.unrefused, h.afterCall.table⟩

/-- A conditional write is made just when the bytes are the expected ones. -/
theorem ensures_compareAndPut (key : String) (expected : Option Bytes) (value : Bytes) :
    Ensures (compareAndPut key expected value) b
      (fun wrote b' => if wrote then b.entries.get? key = expected.map .bytes ∧
        b'.entries = b.entries.insert key (.bytes value) else b'.entries = b.entries)
      (fun e b' => b'.entries = b.entries ∧ b.Refuses e) := by
  refine ensures_call ?_ fun e hrefuses => ⟨rfl, hrefuses⟩
  by_cases hexpected : b.entries.get? key = expected.map .bytes
  · simp [afterCall, hexpected]
  · simp [afterCall, hexpected]

/-- A conditional write that may lose: it writes what it was to write, or nothing. -/
theorem ensures_contend (key : String) (expected : Option Bytes) (value : Bytes) :
    Ensures (contend key expected value) b
      (fun wrote b' => if wrote then b.entries.get? key = expected.map .bytes ∧
        b'.entries = b.entries.insert key (.bytes value) else b'.entries = b.entries)
      (fun e b' => b'.entries = b.entries ∧ b.Refuses e) := by
  rw [contend, ensures_bind, ensures_get]
  split
  · exact ensures_compareAndPut key expected value
  · simp

/-- Where the bytes are the expected ones, it loses only if another writer wins. -/
theorem ensures_contend_expected {key : String} {expected : Option Bytes}
    (hexpected : b.entries.get? key = expected.map .bytes) (value : Bytes) :
    Ensures (contend key expected value) b
      (fun wrote b' => if wrote then b.losses = 0 else b = { b' with losses := b'.losses + 1 })
      (fun e b' => b'.entries = b.entries ∧ b.Refuses e) := by
  rw [contend, ensures_bind, ensures_get]
  split
  · rename_i hlosses
    refine ensures_call ?_ fun e hrefuses => ⟨rfl, hrefuses⟩
    simp [afterCall, hexpected, hlosses]
  · rename_i losses hlosses
    cases b
    cases hlosses
    rfl

/-! ## Fetching -/

/-- A cell holds the text of a record. -/
def Holds (read? : Json → Option α) (cell : Cell) (record : α) : Prop :=
  ∃ text, cell = .bytes text ∧ Json.decode read? text = some record

theorem Holds.unique {read? : Json → Option α} {cell : Cell} {record record' : α}
    (h : Holds read? cell record) (h' : Holds read? cell record') : record = record' := by
  obtain ⟨text, rfl, hread⟩ := h
  obtain ⟨text', heq, hread'⟩ := h'
  cases heq
  exact Option.some.inj (hread.symm.trans hread')

/-- Steps over a list succeed together if each of them does. -/
theorem mapM_eq_ok_iff {β γ : Type} {f : β → Except Error γ} {items : List β} {found : List γ} :
    items.mapM f = .ok found ↔ List.Forall₂ (fun item result => f item = .ok result) items found := by
  induction items generalizing found with
  | nil => cases found <;> simp [pure, Except.pure]
  | cons item items ih =>
    rw [List.mapM_cons]
    cases hitem : f item with
    | error e => cases found <;> simp [bind, Except.bind, hitem]
    | ok result =>
      cases hrest : items.mapM f with
      | error e => cases found <;> simp [bind, Except.bind, hitem, hrest, ← ih]
      | ok rest => cases found <;> simp [bind, Except.bind, pure, Except.pure, hitem, hrest, ← ih]

/-- If they fail, then because one of them does. -/
theorem exists_of_mapM_eq_error {β γ : Type} {f : β → Except Error γ} {items : List β} {e : Error}
    (h : items.mapM f = .error e) : ∃ item ∈ items, f item = .error e := by
  induction items with
  | nil => cases h
  | cons item items ih =>
    rw [List.mapM_cons] at h
    cases hitem : f item with
    | error e' =>
      rw [hitem] at h
      cases h
      exact ⟨item, List.mem_cons_self, hitem⟩
    | ok result =>
      rw [hitem] at h
      cases hrest : items.mapM f with
      | error e' =>
        rw [hrest] at h
        cases h
        obtain ⟨failing, hmem, hfailing⟩ := ih hrest
        exact ⟨failing, List.mem_cons_of_mem _ hmem, hfailing⟩
      | ok rest =>
        rw [hrest] at h
        cases h

/-- A reading call leaves everything as it was and gives what the entries give. -/
theorem ensures_read {answer : Backend → Except Error α} : Ensures (read answer) b
    (fun a b' => b.Same b' ∧ answer b.afterCall = .ok a)
    (fun e b' => b.Same b' ∧ (b.Refuses e ∨ answer b.afterCall = .error e)) := by
  rw [read, ensures_bind]
  refine ensures_call ?_ fun e hrefuses => ⟨same_afterCall b, .inl hrefuses⟩
  cases hanswer : answer b.afterCall with
  | ok a => exact ⟨same_afterCall b, rfl⟩
  | error e => exact ⟨same_afterCall b, .inr rfl⟩

/-- Looking up a key gives its bytes, or fails on a cell that holds none. -/
theorem ensures_get? (key : String) : Ensures (get? key) b
    (fun found b' => b.Same b' ∧ b.entries.get? key = found.map .bytes)
    (fun e b' => b.Same b' ∧
      (b.Refuses e ∨ ∃ value, b.entries.get? key = some (.integer value))) := by
  refine ensures_read.imp (fun found b' h => ⟨h.1, ?_⟩) fun e b' h => ⟨h.1, ?_⟩
  · obtain ⟨_, hanswer⟩ := h
    rcases hcell : b.entries.get? key with _ | (value | value)
    all_goals simp only [afterCall, hcell, Cell.read] at hanswer
    · cases hanswer
      rfl
    · cases hanswer
      rfl
    · cases hanswer
  · refine h.2.imp_right fun hanswer => ?_
    rcases hcell : b.entries.get? key with _ | (value | value)
    all_goals simp only [afterCall, hcell, Cell.read] at hanswer
    · cases hanswer
    · cases hanswer
    · exact ⟨value, rfl⟩

/-- Both kinds of backends scan alike. -/
theorem scan_eq (stem : String) : scan stem = read fun backend =>
    (scanFilter stem backend.entries.toList).mapM fun entry =>
      return (entry.1, ← entry.2.read) := by
  refine congrArg read (funext fun backend => ?_)
  dsimp only
  split
  · rw [scanRange_eq_scanFilter stem backend.entries.ascending]
  · rfl

/-- A scan finds the texts of all entries below a stem, or one of them is not a text. -/
theorem ensures_scan (stem : String) : Ensures (scan stem) b
    (fun found b' => b.Same b' ∧
      scanFilter stem b.entries.toList = found.map fun entry => (entry.1, Cell.bytes entry.2))
    (fun _ b' => b.Same b' ∧ (b.Healthy →
      ∃ entry ∈ scanFilter stem b.entries.toList, ∀ text, entry.2 ≠ .bytes text)) := by
  rw [scan_eq]
  refine ensures_read.imp (fun found b' h => ⟨h.1, ?_⟩) fun e b' h => ⟨h.1, fun hhealthy => ?_⟩
  · rw [← List.forall₂_eq_eq_eq, List.forall₂_map_right_iff]
    refine (mapM_eq_ok_iff.1 h.2).imp fun entry text hread => ?_
    obtain ⟨key, cell⟩ := entry
    cases cell with
    | bytes value =>
      cases hread
      rfl
    | integer value => cases hread
  · have herror := h.2.resolve_left fun hrefuses => hrefuses.not_healthy hhealthy
    obtain ⟨entry, hmem, hread⟩ := exists_of_mapM_eq_error herror
    refine ⟨entry, hmem, fun text htext => ?_⟩
    rw [htext] at hread
    cases hread

/-- Scans for the entries below a stem and decodes them. -/
def fetch (read? : Json → Option α) (fault : String → DecodeFault) (stem : String) :
    Operation Backend (List α) := do
  let found ← scan stem
  ofExcept (Metadata.decodeAll read? fault found)

/-- The records behind the entries below a stem. -/
def Fetched (read? : Json → Option α) (stem : String) (b : Backend) (records : List α) : Prop :=
  List.Forall₂ (fun entry record => Holds read? entry.2 record)
    (scanFilter stem b.entries.toList) records

theorem decodeAll_eq_ok_iff {read? : Json → Option α} {fault : String → DecodeFault}
    {found : List (String × Bytes)} {records : List α} :
    Metadata.decodeAll read? fault found = .ok records ↔
      List.Forall₂ (fun item record => Json.decode read? item.2 = some record) found records := by
  rw [Metadata.decodeAll, mapM_eq_ok_iff]
  refine iff_of_eq (congrArg (List.Forall₂ · found records) ?_)
  funext item record
  cases h : Json.decode read? item.2 <;> simp [h]

/-- Fetching finds the records of all entries below a stem, or one entry holds no record. -/
theorem ensures_fetch (read? : Json → Option α) (fault : String → DecodeFault) (stem : String) :
    Ensures (fetch read? fault stem) b
      (fun records b' => b.Same b' ∧ Fetched read? stem b records)
      (fun _ b' => b.Same b' ∧ (b.Healthy →
        ∃ entry ∈ scanFilter stem b.entries.toList, ∀ record, ¬ Holds read? entry.2 record)) := by
  rw [fetch, ensures_bind]
  refine (ensures_scan stem).imp (fun found b' h => ?_) fun e b' h => ⟨h.1, fun hhealthy => ?_⟩
  · obtain ⟨hsame, hfound⟩ := h
    have holds (text : Bytes) (record : α) :
        Holds read? (Cell.bytes text) record ↔ Json.decode read? text = some record := by
      simp [Holds]
    simp only [ensures_ofExcept, Fetched, hfound]
    refine ⟨fun records hrecords => ⟨hsame, ?_⟩, fun e herror => ⟨hsame, fun _ => ?_⟩⟩
    · rw [List.forall₂_map_left_iff]
      exact (decodeAll_eq_ok_iff.1 hrecords).imp fun item record h => (holds item.2 record).2 h
    · obtain ⟨item, hmem, hdecode⟩ := exists_of_mapM_eq_error herror
      refine ⟨_, List.mem_map_of_mem hmem, fun record hholds => ?_⟩
      dsimp only at hdecode
      rw [(holds item.2 record).1 hholds] at hdecode
      cases hdecode
  · obtain ⟨entry, hmem, hno⟩ := h.2 hhealthy
    refine ⟨entry, hmem, ?_⟩
    rintro record ⟨text, heq, _⟩
    exact hno text heq

end Backend

end IngestCoordinator
