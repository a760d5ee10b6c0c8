-- SUMMARY: The statements of the database backend answer as the backend in memory does.
import IngestCoordinator.Proofs.Store.Answers
import Mathlib.Data.List.Nodup
import Mathlib.Data.List.TakeWhile

/-!
# Statements

A database keeps the entries as the rows of a table, in any order, with one row for each
key. Each call is one statement on the table. A scan compares a beginning of each key with
the stem, where `length` says how long a beginning and `substr` cuts it out, and lists the
rows in the order that the engine has for texts. What an engine is expected to do with texts
that have no NUL in them is stated here (`Engine.Standard`), and it makes the statements
answer what a backend in memory answers, which scans a range of its keys.
-/

namespace IngestCoordinator.Backend

/-- The rows of the table, in whatever order they are kept. -/
abbrev Rows := List (String × Bytes)

/-- The rows are the entries, one for each key. -/
structure Lists (rows : Rows) (entries : SortedMap String Bytes) : Prop where
  mem_iff : ∀ {key value}, (key, value) ∈ rows ↔ entries.get? key = some value
  distinct : (rows.map (·.1)).Nodup

/-- A text without the character that ends texts in some languages. -/
def NulFree (text : String) : Prop :=
  Char.ofNat 0 ∉ text.toList

instance (text : String) : Decidable (NulFree text) :=
  inferInstanceAs (Decidable (¬ _))

/-- What statements leave to the engine: functions on texts, and the order of texts. -/
structure Engine where
  length : String → Nat
  /-- The beginning of a text at a position, counted from one, with at most so many characters. -/
  substr : String → Nat → Nat → String
  /-- Whether a row with the first key may be listed before a row with the second. -/
  precedes : String → String → Prop

/-- Lengths and positions count characters, and texts are ordered by their bytes. -/
structure Engine.Standard (engine : Engine) : Prop where
  length_eq : ∀ {text}, NulFree text → engine.length text = text.length
  substr_one : ∀ {text}, NulFree text → ∀ count,
    (engine.substr text 1 count).toList = text.toList.take count
  precedes_iff : ∀ {a b}, engine.precedes a b ↔ Bytes.ofString a ≤ Bytes.ofString b

/-- The key or the stem that a call is about. -/
def Call.text : Call → String
  | .get key => key
  | .put key _ => key
  | .delete key => key
  | .compareAndPut key _ _ => key
  | .scan stem => stem

/-! ## Statements on the table -/

namespace Rows

/-- Sets the value of a key, in its row or in a new one. -/
def upsert (rows : Rows) (key : String) (value : Bytes) : Rows :=
  if key ∈ rows.map (·.1) then rows.map fun row => if row.1 = key then (key, value) else row
  else rows ++ [(key, value)]

/-- Adds a row unless the key has one, and counts the rows that are added. -/
def insertNew (rows : Rows) (key : String) (value : Bytes) : Nat × Rows :=
  if key ∈ rows.map (·.1) then (0, rows) else (1, rows ++ [(key, value)])

/-- Sets the value of a key where it is the expected one, and counts the rows that are set. -/
def update (rows : Rows) (key : String) (expected value : Bytes) : Nat × Rows :=
  (rows.count (key, expected),
    rows.map fun row => if row = (key, expected) then (key, value) else row)

def delete (rows : Rows) (key : String) : Rows :=
  rows.filter fun row => row.1 ≠ key

end Rows

namespace Engine

/-- The rows of a table whose key has the stem at its beginning, put in order. -/
structure Selects (engine : Engine) (rows : Rows) (stem : String) (found : Rows) : Prop where
  chosen : found.Perm (rows.filter fun row => engine.substr row.1 1 (engine.length stem) = stem)
  ordered : found.Pairwise fun a b => engine.precedes a.1 b.1

/-- The statement for a call, its answer, and the rows that it leaves. -/
inductive Executes (engine : Engine) (rows : Rows) : Call → Answer → Rows → Prop
  | getRow {key value} : (key, value) ∈ rows →
      Executes engine rows (.get key) (.found (some value)) rows
  | getNone {key} : key ∉ rows.map (·.1) →
      Executes engine rows (.get key) (.found none) rows
  | put {key value} : Executes engine rows (.put key value) .done (rows.upsert key value)
  | delete {key} : Executes engine rows (.delete key) .done (rows.delete key)
  | putNew {key value} : Executes engine rows (.compareAndPut key none value)
      (.wrote ((rows.insertNew key value).1 = 1)) (rows.insertNew key value).2
  | replace {key expected value} : Executes engine rows (.compareAndPut key (some expected) value)
      (.wrote ((rows.update key expected value).1 = 1)) (rows.update key expected value).2
  | scan {stem found} : engine.Selects rows stem found →
      Executes engine rows (.scan stem) (.listed found) rows

/-- The statements for a list of calls, one after the other. -/
inductive Answers (engine : Engine) : Rows → List Call → List Answer → Prop
  | nil {rows} : Answers engine rows [] []
  | cons {rows rows' call calls answer answers} : engine.Executes rows call answer rows' →
      Answers engine rows' calls answers → Answers engine rows (call :: calls) (answer :: answers)

end Engine

/-! ## The rows are the entries -/

variable {engine : Engine} {rows : Rows} {entries : SortedMap String Bytes}

namespace Lists

theorem nodup (h : Lists rows entries) : rows.Nodup :=
  List.Nodup.of_map _ h.distinct

theorem mem_keys_iff (h : Lists rows entries) {key : String} :
    key ∈ rows.map (·.1) ↔ ∃ value, entries.get? key = some value := by
  simp only [List.mem_map, Prod.exists, exists_and_right, exists_eq_right, h.mem_iff]

theorem get?_eq_none (h : Lists rows entries) {key : String} (hkey : key ∉ rows.map (·.1)) :
    entries.get? key = none := by
  rw [Option.eq_none_iff_forall_ne_some]
  exact fun value hvalue => hkey (h.mem_keys_iff.2 ⟨value, hvalue⟩)

/-- A row in place of each row keeps the keys apart if it has the same key. -/
theorem set (h : Lists rows entries) {key : String} {value : Bytes} {p : String × Bytes → Prop}
    [DecidablePred p] (hp : ∀ {row}, row ∈ rows → (p row ↔ row.1 = key))
    (hkey : key ∈ rows.map (·.1)) :
    Lists (rows.map fun row => if p row then (key, value) else row) (entries.insert key value) where
  mem_iff := by
    intro key' value'
    rw [List.mem_map, SortedMap.get?_insert]
    constructor
    · rintro ⟨row, hrow, heq⟩
      by_cases hset : p row
      · rw [if_pos hset] at heq
        cases heq
        rw [if_pos rfl]
      · rw [if_neg hset] at heq
        subst heq
        rw [if_neg fun heq => hset ((hp hrow).2 heq)]
        exact h.mem_iff.1 hrow
    · intro hget
      split at hget
      · rename_i heq
        subst heq
        cases hget
        obtain ⟨row, hrow, hrowkey⟩ := List.mem_map.1 hkey
        exact ⟨row, hrow, if_pos ((hp hrow).2 hrowkey)⟩
      · rename_i hne
        have hrow := h.mem_iff.2 hget
        exact ⟨_, hrow, if_neg fun hset => hne ((hp hrow).1 hset)⟩
  distinct := by
    have hkeys : (rows.map fun row => if p row then (key, value) else row).map (·.1) =
        rows.map (·.1) := by
      rw [List.map_map]
      refine List.map_congr_left fun row hrow => ?_
      rw [Function.comp_apply]
      split
      · rename_i hset
        exact ((hp hrow).1 hset).symm
      · rfl
    rw [hkeys]
    exact h.distinct

theorem add (h : Lists rows entries) {key : String} (hkey : key ∉ rows.map (·.1))
    (value : Bytes) : Lists (rows ++ [(key, value)]) (entries.insert key value) where
  mem_iff := by
    intro key' value'
    rw [List.mem_append, List.mem_singleton, h.mem_iff, SortedMap.get?_insert, Prod.mk.injEq]
    by_cases heq : key' = key
    · subst heq
      simp [h.get?_eq_none hkey, eq_comm]
    · simp [heq]
  distinct := by
    rw [List.map_append, List.map_singleton, ← List.concat_eq_append]
    exact List.Nodup.concat hkey h.distinct

theorem delete (h : Lists rows entries) (key : String) :
    Lists (rows.delete key) (entries.erase key) where
  mem_iff := by
    intro key' value'
    rw [Rows.delete, List.mem_filter, h.mem_iff, SortedMap.get?_erase]
    by_cases heq : key' = key
    · simp [heq]
    · simp [heq]
  distinct := h.distinct.sublist (List.filter_sublist.map _)

theorem upsert (h : Lists rows entries) (key : String) (value : Bytes) :
    Lists (rows.upsert key value) (entries.insert key value) := by
  rw [Rows.upsert]
  split
  · rename_i hkey
    exact h.set (fun _ => Iff.rfl) hkey
  · rename_i hkey
    exact h.add hkey value

theorem insertNew (h : Lists rows entries) (key : String) (value : Bytes) :
    ((rows.insertNew key value).1 = 1 ↔ entries.get? key = none) ∧
      Lists (rows.insertNew key value).2 (after entries (.compareAndPut key none value)) := by
  rw [Rows.insertNew, after]
  split
  · rename_i hkey
    obtain ⟨old, hold⟩ := h.mem_keys_iff.1 hkey
    rw [hold, if_neg (Option.some_ne_none old)]
    exact ⟨iff_of_false Nat.zero_ne_one (Option.some_ne_none old), h⟩
  · rename_i hkey
    rw [h.get?_eq_none hkey, if_pos rfl]
    exact ⟨iff_of_true rfl rfl, h.add hkey value⟩

theorem update (h : Lists rows entries) (key : String) (expected value : Bytes) :
    ((rows.update key expected value).1 = 1 ↔ entries.get? key = some expected) ∧
      Lists (rows.update key expected value).2
        (after entries (.compareAndPut key (some expected) value)) := by
  rw [Rows.update, after]
  split
  · rename_i hexpected
    have hrow := h.mem_iff.2 hexpected
    refine ⟨⟨fun _ => hexpected, fun _ => List.count_eq_one_of_mem h.nodup hrow⟩, ?_⟩
    refine h.set (fun {row} hmem => ⟨fun heq => by rw [heq], fun heq => ?_⟩)
      (List.mem_map.2 ⟨_, hrow, rfl⟩)
    obtain ⟨_, found⟩ := row
    subst heq
    exact congrArg _ (Option.some.inj ((h.mem_iff.1 hmem).symm.trans hexpected))
  · rename_i hexpected
    have hrow : (key, expected) ∉ rows := fun hmem => hexpected (h.mem_iff.1 hmem)
    refine ⟨⟨fun hcount => ?_, fun hget => absurd hget hexpected⟩, ?_⟩
    · dsimp only at hcount
      rw [List.count_eq_zero_of_not_mem hrow] at hcount
      cases hcount
    · have hsame : (rows.map fun row => if row = (key, expected) then (key, value) else row) =
          rows.map id :=
        List.map_congr_left fun row hmem => if_neg fun heq => hrow (by rwa [← heq])
      dsimp only
      rw [hsame, List.map_id]
      exact h

end Lists

/-! ## What statements answer -/

namespace Engine

variable {stem key : String} {call : Call} {answer : Answer}

/-- The beginning that is cut out is the stem just for the keys that start with it. -/
theorem Standard.substr_eq_iff (hengine : engine.Standard) (hstem : NulFree stem)
    (hkey : NulFree key) :
    engine.substr key 1 (engine.length stem) = stem ↔ startsWith stem key = true := by
  rw [← String.toList_inj, hengine.substr_one hkey, hengine.length_eq hstem, startsWith,
    List.isPrefixOf_iff_prefix, List.prefix_iff_eq_take, String.length_toList, eq_comm]

/-- The rows chosen and put in order are the entries below the stem. -/
theorem selects_iff (hengine : engine.Standard) (hrows : Lists rows entries)
    (hkeys : ∀ key ∈ entries.keys, NulFree key) (hstem : NulFree stem) (found : Rows) :
    engine.Selects rows stem found ↔ found = below stem entries := by
  have hchosen (row : String × Bytes) :
      row ∈ rows.filter (fun row => engine.substr row.1 1 (engine.length stem) = stem) ↔
        row ∈ below stem entries := by
    obtain ⟨key, value⟩ := row
    rw [List.mem_filter, hrows.mem_iff, below, List.mem_filter, SortedMap.mem_toList_iff]
    refine and_congr_right fun hget => ?_
    have hkey := hkeys key (SortedMap.mem_keys_iff.2 ⟨value, hget⟩)
    rw [decide_eq_true_iff, hengine.substr_eq_iff hstem hkey]
  constructor
  · intro h
    have hdistinct : (found.map (·.1)).Nodup :=
      (h.chosen.map _).nodup_iff.2 (hrows.distinct.sublist (List.filter_sublist.map _))
    -- No key is listed twice, so the order of the rows is strict.
    have hascending : found.Pairwise fun a b => compare a.1 b.1 = .lt := by
      refine (h.ordered.and (List.pairwise_map.1 hdistinct)).imp fun {a b} hab => ?_
      have hnot : ¬ b.1 < a.1 := fun hlt =>
        List.not_lt.2 (hengine.precedes_iff.1 hab.1) (Bytes.ofString_lt_ofString_iff.2 hlt)
      exact compare_eq_lt_iff.2 (lt_of_le_of_ne (not_lt.1 hnot) hab.2)
    exact SortedMap.eq_of_mem_iff hascending (entries.ascending.filter _) fun row =>
      h.chosen.mem_iff.trans (hchosen row)
  · rintro rfl
    refine ⟨?_, ?_⟩
    · have hnodup : (below stem entries).Nodup :=
        (List.Nodup.of_map _ (SortedMap.nodup_keys entries)).filter _
      rw [List.perm_ext_iff_of_nodup hnodup (hrows.nodup.filter _)]
      exact fun row => (hchosen row).symm
    · exact (ascending_below stem entries).imp fun hlt =>
        hengine.precedes_iff.2 (List.not_lt.1 (List.lt_asymm hlt))

/-- A statement can be executed, and however it is, it answers what the entries answer. -/
theorem executes (hengine : engine.Standard) (hrows : Lists rows entries)
    (hkeys : ∀ key ∈ entries.keys, NulFree key) (hcall : NulFree call.text) :
    (∃ rows', engine.Executes rows call (reply entries call) rows') ∧
      ∀ {answer rows'}, engine.Executes rows call answer rows' →
        answer = reply entries call ∧ Lists rows' (after entries call) := by
  constructor
  · cases call with
    | get key =>
      rw [reply]
      cases hget : entries.get? key with
      | none =>
        refine ⟨_, .getNone fun hmem => ?_⟩
        obtain ⟨value, hvalue⟩ := hrows.mem_keys_iff.1 hmem
        rw [hget] at hvalue
        cases hvalue
      | some value => exact ⟨_, .getRow (hrows.mem_iff.2 hget)⟩
    | put key value => exact ⟨_, .put⟩
    | delete key => exact ⟨_, .delete⟩
    | compareAndPut key expected value =>
      cases expected with
      | none =>
        rw [reply, ← decide_eq_decide.2 (hrows.insertNew key value).1]
        exact ⟨_, .putNew⟩
      | some expected =>
        rw [reply, ← decide_eq_decide.2 (hrows.update key expected value).1]
        exact ⟨_, .replace⟩
    | scan stem => exact ⟨_, .scan ((selects_iff hengine hrows hkeys hcall _).2 rfl)⟩
  · intro answer rows' h
    cases h with
    | getRow hmem => exact ⟨by rw [reply, hrows.mem_iff.1 hmem], hrows⟩
    | getNone hkey => exact ⟨by rw [reply, hrows.get?_eq_none hkey], hrows⟩
    | put => exact ⟨rfl, hrows.upsert ..⟩
    | delete => exact ⟨rfl, hrows.delete _⟩
    | @putNew key value =>
      obtain ⟨hwrote, hrows'⟩ := hrows.insertNew key value
      exact ⟨by rw [reply, decide_eq_decide.2 hwrote], hrows'⟩
    | @replace key expected value =>
      obtain ⟨hwrote, hrows'⟩ := hrows.update key expected value
      exact ⟨by rw [reply, decide_eq_decide.2 hwrote], hrows'⟩
    | scan hselects =>
      rw [(selects_iff hengine hrows hkeys hcall _).1 hselects]
      exact ⟨rfl, hrows⟩

/-- What a call leaves has no NUL in its keys if there was none before. -/
theorem nulFree_after (hkeys : ∀ key ∈ entries.keys, NulFree key) (hcall : NulFree call.text) :
    ∀ key ∈ (after entries call).keys, NulFree key := by
  intro key hmem
  obtain ⟨value, hvalue⟩ := SortedMap.mem_keys_iff.1 hmem
  have hinsert {key' : String} {value' : Bytes} (hkey' : NulFree key')
      (hget : (entries.insert key' value').get? key = some value) : NulFree key := by
    rcases SortedMap.get?_insert_cases hget with ⟨rfl, -⟩ | ⟨-, hget⟩
    · exact hkey'
    · exact hkeys key (SortedMap.mem_keys_iff.2 ⟨value, hget⟩)
  cases call with
  | get key' => exact hkeys key hmem
  | put key' value' => exact hinsert hcall hvalue
  | delete key' =>
    exact hkeys key (SortedMap.mem_keys_iff.2 ⟨value, SortedMap.get?_of_get?_erase hvalue⟩)
  | compareAndPut key' expected value' =>
    rw [after] at hvalue
    split at hvalue
    · exact hinsert hcall hvalue
    · exact hkeys key (SortedMap.mem_keys_iff.2 ⟨value, hvalue⟩)
  | scan stem => exact hkeys key hmem

/-- The statements for a list of calls answer what the entries answer. -/
theorem answers_iff (hengine : engine.Standard) (hrows : Lists rows entries)
    (hkeys : ∀ key ∈ entries.keys, NulFree key) {calls : List Call}
    (hcalls : ∀ call ∈ calls, NulFree call.text) (answers : List Answer) :
    engine.Answers rows calls answers ↔ answers = replies entries calls := by
  induction calls generalizing rows entries answers with
  | nil =>
    constructor
    · rintro ⟨⟩
      rfl
    · rintro rfl
      exact .nil
  | cons call calls ih =>
    obtain ⟨hcall, hcalls⟩ := List.forall_mem_cons.1 hcalls
    obtain ⟨⟨rows', hexecutes⟩, honly⟩ := executes hengine hrows hkeys hcall
    constructor
    · rintro (_ | ⟨hfirst, hrest⟩)
      obtain ⟨rfl, hrows'⟩ := honly hfirst
      rw [(ih hrows' (nulFree_after hkeys hcall) hcalls _).1 hrest, replies]
    · rintro rfl
      have hrows' := (honly hexecutes).2
      exact .cons hexecutes ((ih hrows' (nulFree_after hkeys hcall) hcalls _).2 rfl)

end Engine

/-! ## Memory and database -/

/-- A backend in memory that starts at the stem and stops at the first other key lists just
the entries whose key begins with the stem, in the order of the bytes of their keys. The
database selects the same rows, and both answer alike to every list of calls. -/
theorem memory_answers_as_database {memory database : Backend}
    (hengine : engine.Standard) (hrows : Lists rows entries)
    (hmemory : memory.Keeps .memory entries) (hdatabase : database.Keeps .database entries) :
    (∀ stem, ∃ found, scan stem memory = .ok found memory ∧
      (∀ key value, (key, value) ∈ found ↔
        entries.get? key = some value ∧ Bytes.ofString stem <+: Bytes.ofString key) ∧
      (found.Pairwise fun a b => Bytes.ofString a.1 < Bytes.ofString b.1) ∧
      ((∀ key ∈ entries.keys, NulFree key) → NulFree stem →
        ∀ selected, engine.Selects rows stem selected ↔ selected = found)) ∧
    ∀ calls, (performAll calls memory).1 = (performAll calls database).1 ∧
      (performAll calls memory).2.entries = (performAll calls database).2.entries ∧
      ((∀ key ∈ entries.keys, NulFree key) → (∀ call ∈ calls, NulFree call.text) →
        ∀ answers, engine.Answers rows calls answers ↔ answers = (performAll calls memory).1) := by
  constructor
  · intro stem
    refine ⟨below stem entries, hmemory.scan_eq stem, fun key value => mem_below_iff,
      ascending_below stem entries, fun hkeys hstem => ?_⟩
    exact Engine.selects_iff hengine hrows hkeys hstem
  · intro calls
    obtain ⟨hreplies, hmemory'⟩ := hmemory.performAll calls
    obtain ⟨hreplies', hdatabase'⟩ := hdatabase.performAll calls
    rw [hreplies, hreplies', hmemory'.entries_eq, hdatabase'.entries_eq]
    exact ⟨rfl, rfl, fun hkeys hcalls => Engine.answers_iff hengine hrows hkeys hcalls⟩

/-- The characters of a text before the first NUL. -/
def visible (text : String) : List Char :=
  text.toList.takeWhile fun c => c ≠ Char.ofNat 0

theorem visible_eq {text : String} (h : NulFree text) : visible text = text.toList := by
  refine List.takeWhile_eq_self_iff.2 fun c hc => ?_
  rw [decide_eq_true_iff]
  rintro rfl
  exact h hc

/-- An engine that does not see what follows a NUL. -/
def Engine.counting : Engine where
  length text := (visible text).length
  substr text first count := String.ofList (((visible text).drop (first - 1)).take count)
  precedes a b := Bytes.ofString a ≤ Bytes.ofString b

theorem Engine.standard_counting : counting.Standard where
  length_eq h := by
    rw [← String.length_toList, ← visible_eq h]
    rfl
  substr_one h count := by
    rw [← visible_eq h]
    exact String.toList_ofList
  precedes_iff := Iff.rfl

theorem lists_ofList (h : (rows.map (·.1)).Nodup) : Lists rows (.ofList rows) where
  mem_iff := (SortedMap.get?_ofList h ..).symm
  distinct := h

theorem keeps_of_entries (medium : Medium) (entries : SortedMap String Bytes) :
    Keeps { medium, entries := entries.map fun _ value => .bytes value } medium entries :=
  ⟨rfl, ⟨rfl, rfl, rfl⟩, rfl⟩

/-- Behind `a/` stands `a0`, and among the keys that begin with `a/` the umlauts come last. -/
theorem memory_answers_as_database_umlauts :
    Engine.counting.Answers [("a/ü", [1]), ("a0", [2]), ("a/z", [3]), ("é", [4])]
      [.scan "a/", .put "a/ö" [5], .compareAndPut "a0" (some [2]) [6], .delete "a/z",
        .compareAndPut "é" none [7], .get "a0", .scan "a/", .scan ""]
      [.listed [("a/z", [3]), ("a/ü", [1])], .done, .wrote true, .done, .wrote false,
        .found (some [6]), .listed [("a/ö", [5]), ("a/ü", [1])],
        .listed [("a/ö", [5]), ("a/ü", [1]), ("a0", [6]), ("é", [4])]] := by
  have hrows : Lists [("a/ü", [1]), ("a0", [2]), ("a/z", [3]), ("é", [4])] (.ofList _) :=
    lists_ofList (by decide +kernel)
  obtain ⟨-, halike⟩ := memory_answers_as_database Engine.standard_counting hrows
    (keeps_of_entries .memory _) (keeps_of_entries .database _)
  exact ((halike _).2.2 (by decide +kernel) (by decide +kernel) _).2 (by decide +kernel)

end IngestCoordinator.Backend
