-- SUMMARY: Sources of settings: values by path, and the settings that a sequence of them makes.
import IngestCoordinator.Settings.Basic
import IngestCoordinator.Text.Real

/-!
# Sources of settings

A source gives plain values to paths such as `segment.size_bytes`. Of several
sources in a row the last that says something about a path decides it: a value
given to the path itself is its value, and one given to a section or below the
path leaves the path without a value. An entry that a later one touches has no say
any more; dropping it changes no value. A plain value is converted to the type that
the setting has. Main statements: `value?_append`, `value?_standing`.
-/

namespace IngestCoordinator

namespace Settings

/-- A plain value as a source gives it. -/
inductive Scalar where
  | bool (value : Bool)
  | int (value : Int)
  | real (value : Float)
  | text (value : String)
  /-- Something that no setting can be: a list, or nothing at all. -/
  | other
  deriving DecidableEq, Repr

namespace Scalar

/-- The truth value that a word of either case stands for where numbers are wanted. -/
def truth? (word : String) : Option Bool :=
  let word := word.toLower
  if ["true", "on", "yes"].contains word then some true
  else if ["false", "off", "no"].contains word then some false
  else none

/-- The value as an unsigned integer; a fraction is rounded, and stops at the ends of the range. -/
def uint64? : Scalar → Option UInt64
  | .bool value => some (if value then 1 else 0)
  | .int value =>
    if 0 ≤ value ∧ value < 0x10000000000000000 then some (UInt64.ofNat value.toNat) else none
  | .real value => some value.round.toUInt64
  | .text word =>
    match truth? word with
    | some value => some (if value then 1 else 0)
    | none => (Decimal.readUnsigned (Bytes.ofString word)).toOption
  | .other => none

/-- The value as an unsigned integer of 32 bits; a larger one is refused. -/
def uint32? (scalar : Scalar) : Option UInt32 :=
  (scalar.uint64?.filter (· ≤ 0xFFFFFFFF)).map UInt64.toUInt32

/-- The value as a signed integer; a fraction is rounded, and stops at the ends of the range. -/
def int64? : Scalar → Option Int64
  | .bool value => some (if value then 1 else 0)
  | .int value =>
    if -0x8000000000000000 ≤ value ∧ value < 0x8000000000000000 then some (Int64.ofInt value)
    else none
  | .real value => some value.round.toInt64
  | .text word =>
    match truth? word with
    | some value => some (if value then 1 else 0)
    | none => (Decimal.readSigned (Bytes.ofString word)).toOption
  | .other => none

/-- The value as a floating-point number. -/
def float? : Scalar → Option Float
  | .bool value => some (if value then 1 else 0)
  | .int value => some (Float.ofInt value)
  | .real value => some value
  | .text word =>
    match truth? word with
    | some value => some (if value then 1 else 0)
    | none => Real.parse? (Bytes.ofString word)
  | .other => none

/-- The value as a text. -/
def string? : Scalar → Option String
  | .bool value => some (if value then "true" else "false")
  | .int value => some (toString value)
  | .real value => Bytes.text? (Real.write value)
  | .text word => some word
  | .other => none

end Scalar

/-- A value given to a path. -/
structure Entry where
  path : List String
  value : Scalar
  deriving DecidableEq, Repr

/-- The entries of a source; later ones count before earlier ones. -/
abbrev Source := List Entry

/-- The entry says something about a path: it gives a value to it, above it or below it. -/
def Entry.touches (entry : Entry) (path : List String) : Bool :=
  entry.path.isPrefixOf path || path.isPrefixOf entry.path

namespace Source

/-- The last entry that says something about a path. -/
def decisive? (source : Source) (path : List String) : Option Entry :=
  source.reverse.find? fun entry => entry.touches path

/-- The value of a path. -/
def value? (source : Source) (path : List String) : Option Scalar :=
  (source.decisive? path).bind fun entry =>
    if entry.path = path then some entry.value else none

theorem decisive?_append (earlier later : Source) (path : List String) :
    decisive? (earlier ++ later) path = (later.decisive? path).or (earlier.decisive? path) := by
  simp [decisive?, List.reverse_append, List.find?_append]

/-- A source decides the paths that it says something about, whatever was given earlier. -/
theorem value?_append (earlier later : Source) (path : List String) :
    value? (earlier ++ later) path =
      if (later.decisive? path).isSome then later.value? path else earlier.value? path := by
  unfold value?
  rw [decisive?_append]
  cases later.decisive? path <;> simp

theorem value?_cons (entry : Entry) (later : Source) (path : List String) :
    value? (entry :: later) path =
      if (later.decisive? path).isSome then later.value? path
      else if entry.path = path then some entry.value else none := by
  have single : value? [entry] path = if entry.path = path then some entry.value else none := by
    by_cases same : entry.path = path
    · simp [value?, decisive?, Entry.touches, same]
    · by_cases touching : entry.touches path <;> simp [value?, decisive?, touching, same]
  rw [← single]
  exact value?_append [entry] later path

theorem decisive?_eq_none_iff (source : Source) (path : List String) :
    source.decisive? path = none ↔ ∀ entry ∈ source, entry.touches path = false := by
  simp [decisive?, List.find?_eq_none]

/-- The entries that no later entry touches. -/
def standing : Source → Source
  | [] => []
  | entry :: later =>
    if later.any fun other => other.touches entry.path then standing later
    else entry :: standing later

theorem mem_of_mem_standing {entry : Entry} {source : Source} (kept : entry ∈ standing source) :
    entry ∈ source := by
  induction source with
  | nil => exact kept
  | cons first later ih =>
    unfold standing at kept
    split at kept
    · exact List.mem_cons_of_mem _ (ih kept)
    · rcases List.mem_cons.mp kept with same | kept
      · exact same ▸ List.mem_cons_self
      · exact List.mem_cons_of_mem _ (ih kept)

/-- What has no say any more gives no value. -/
theorem value?_standing (source : Source) (path : List String) :
    (standing source).value? path = source.value? path := by
  induction source with
  | nil => rfl
  | cons entry later ih =>
    unfold standing
    split
    next touched =>
      rw [ih, value?_cons]
      cases silent : decisive? later path with
      | some _ => simp
      | none =>
        have apart : entry.path ≠ path := by
          rintro rfl
          obtain ⟨other, member, touching⟩ := List.any_eq_true.mp touched
          simp [(decisive?_eq_none_iff later _).mp silent other member] at touching
        simp [value?, silent, apart]
    next untouched =>
      rw [value?_cons, value?_cons, ih]
      cases kept : (standing later).decisive? path with
      | some winner =>
        have member : winner ∈ standing later := by
          simpa using List.mem_of_find?_eq_some kept
        have touching : winner.touches path := by
          simpa using List.find?_some kept
        have spoken : (decisive? later path).isSome := by
          rw [Option.isSome_iff_ne_none]
          intro silent
          have := (decisive?_eq_none_iff later path).mp silent winner (mem_of_mem_standing member)
          simp [this] at touching
        simp [spoken]
      | none =>
        have unset : value? later path = none := by
          rw [← ih]
          simp [value?, kept]
        cases spoken : decisive? later path with
        | none => simp
        | some winner =>
          have member : winner ∈ later := by
            simpa using List.mem_of_find?_eq_some spoken
          have touching : winner.touches path := by
            simpa using List.find?_some spoken
          have apart : entry.path ≠ path := by
            rintro rfl
            exact untouched (List.any_eq_true.mpr ⟨winner, member, touching⟩)
          simp [unset, apart]

end Source

/-! ## Settings -/

/-- All settings, each as an entry. -/
def entries (settings : Settings) : Source :=
  let segment := settings.segment
  let channels := settings.channels
  let cluster := settings.cluster
  let store := settings.store
  let logging := settings.logging
  let natural (n : Nat) : Scalar := .int n
  [⟨["segment", "size_bytes"], natural segment.sizeBytes.toNat⟩,
    ⟨["segment", "seal_proportion"], .real segment.sealProportion⟩,
    ⟨["segment", "grant_lifetime_ms"], natural segment.grantLifetimeMs.toNat⟩,
    ⟨["segment", "max_open_attempts"], natural segment.maxOpenAttempts.toNat⟩,
    ⟨["channels", "per_collection"], natural channels.perCollection.toNat⟩,
    ⟨["channels", "insert_prefix"], .text channels.insertStem⟩,
    ⟨["channels", "time_tick"], .text channels.timeTick⟩,
    ⟨["channels", "statistics"], .text channels.statistics⟩,
    ⟨["channels", "flush_completed"], .text channels.flushCompleted⟩,
    ⟨["channels", "buffer"], natural channels.buffer.toNat⟩,
    ⟨["cluster", "coordinator_id"], .int cluster.coordinator.toInt⟩,
    ⟨["cluster", "expected_nodes"], natural cluster.expectedNodes.toNat⟩,
    ⟨["cluster", "formation_timeout_secs"], natural cluster.formationTimeoutSecs.toNat⟩,
    ⟨["cluster", "silence_timeout_secs"], natural cluster.silenceTimeoutSecs.toNat⟩,
    ⟨["cluster", "reap_interval_secs"], natural cluster.reapIntervalSecs.toNat⟩,
    ⟨["meta", "root_path"], .text store.root⟩,
    ⟨["meta", "sqlite_url"], .text store.sqliteUrl⟩,
    ⟨["meta", "id_block_size"], natural store.idBlockSize.toNat⟩,
    ⟨["logging", "level"], .text logging.level⟩,
    ⟨["logging", "format"], .text logging.format⟩]

/-- The settings that a source makes: each needs a value that can be converted to its type. -/
def ofSource? (source : Source) : Option Settings := do
  let get {α : Type} (convert? : Scalar → Option α) (path : List String) : Option α :=
    (source.value? path).bind convert?
  return {
    segment := {
      sizeBytes := ← get Scalar.uint64? ["segment", "size_bytes"]
      sealProportion := ← get Scalar.float? ["segment", "seal_proportion"]
      grantLifetimeMs := ← get Scalar.uint64? ["segment", "grant_lifetime_ms"]
      maxOpenAttempts := ← get Scalar.uint32? ["segment", "max_open_attempts"] }
    channels := {
      perCollection := ← get Scalar.uint32? ["channels", "per_collection"]
      insertStem := ← get Scalar.string? ["channels", "insert_prefix"]
      timeTick := ← get Scalar.string? ["channels", "time_tick"]
      statistics := ← get Scalar.string? ["channels", "statistics"]
      flushCompleted := ← get Scalar.string? ["channels", "flush_completed"]
      buffer := ← get Scalar.uint64? ["channels", "buffer"] }
    cluster := {
      coordinator := ← get Scalar.int64? ["cluster", "coordinator_id"]
      expectedNodes := ← get Scalar.uint64? ["cluster", "expected_nodes"]
      formationTimeoutSecs := ← get Scalar.uint64? ["cluster", "formation_timeout_secs"]
      silenceTimeoutSecs := ← get Scalar.uint64? ["cluster", "silence_timeout_secs"]
      reapIntervalSecs := ← get Scalar.uint64? ["cluster", "reap_interval_secs"] }
    store := {
      root := ← get Scalar.string? ["meta", "root_path"]
      sqliteUrl := ← get Scalar.string? ["meta", "sqlite_url"]
      idBlockSize := ← get Scalar.uint64? ["meta", "id_block_size"] }
    logging := {
      level := ← get Scalar.string? ["logging", "level"]
      format := ← get Scalar.string? ["logging", "format"] } }

end Settings

end IngestCoordinator
