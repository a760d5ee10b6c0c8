-- SUMMARY: The settings of a coordinator, their defaults and what makes them usable.
import IngestCoordinator.Json.Record

/-!
# Settings

Settings come in sections. Each has a default, and a coordinator is started only
with settings that are usable; the first fault in a fixed order is reported.
-/

namespace IngestCoordinator

/-- How large segments become, how long grants last, and how hard to try for a grant. -/
structure SegmentSettings where
  /-- The memory that a segment is meant to take, in bytes. -/
  sizeBytes : UInt64 := 536870912
  /-- The share of its capacity at which a segment takes no further rows. -/
  sealProportion : Float := 0.75
  grantLifetimeMs : UInt64 := 2000
  /-- How many segments one request may open. -/
  maxOpenAttempts : UInt32 := 3
  deriving Repr

/-- The names of channels and the room for messages on them. -/
structure ChannelSettings where
  /-- The number of insert channels of a collection. -/
  perCollection : UInt32 := 2
  /-- What the names of insert channels start with. -/
  insertStem : String := "insert-channel-"
  timeTick : String := "datacoord-timetick"
  statistics : String := "datacoord-segment-statistics"
  flushCompleted : String := "datacoord-flush-completed"
  /-- The room of each queue of messages. -/
  buffer : UInt64 := 1024
  deriving DecidableEq, Repr

/-- The number that nodes know the coordinator by, and the times it waits for them. -/
structure ClusterSettings where
  coordinator : Int64 := 0
  /-- How many nodes must have registered before the coordinator starts. -/
  expectedNodes : UInt64 := 1
  formationTimeoutSecs : UInt64 := 60
  /-- A node without a heartbeat for this long is removed. -/
  silenceTimeoutSecs : UInt64 := 30
  /-- The time between two searches for silent nodes. -/
  reapIntervalSecs : UInt64 := 5
  deriving DecidableEq, Repr

namespace ClusterSettings

def formationTimeoutMs (settings : ClusterSettings) : Nat :=
  settings.formationTimeoutSecs.toNat * 1000

def silenceTimeoutMs (settings : ClusterSettings) : Nat :=
  settings.silenceTimeoutSecs.toNat * 1000

def reapIntervalMs (settings : ClusterSettings) : Nat :=
  settings.reapIntervalSecs.toNat * 1000

end ClusterSettings

/-- Where records are kept, and how many identifiers are reserved at once. -/
structure StoreSettings where
  root : String := "datacoord/meta"
  sqliteUrl : String := "sqlite://datacoord.db?mode=rwc"
  idBlockSize : UInt64 := 1000
  deriving DecidableEq, Repr

/-- What is logged and in which form. -/
structure LoggingSettings where
  level : String := "info"
  format : String := "pretty"
  deriving DecidableEq, Repr

/-- All settings of a coordinator. -/
structure Settings where
  segment : SegmentSettings := {}
  channels : ChannelSettings := {}
  cluster : ClusterSettings := {}
  store : StoreSettings := {}
  logging : LoggingSettings := {}
  deriving Repr

/-! ## Validity -/

/-- What makes settings unusable. -/
inductive SettingsFault where
  | sizeBytes
  | sealProportion
  | maxOpenAttempts
  | perCollection
  | buffer
  | expectedNodes
  | silenceOrReap
  | idBlockSize
  deriving DecidableEq, Repr

def SettingsFault.message : SettingsFault → String
  | .sizeBytes => "segment.size_bytes must be > 0"
  | .sealProportion => "segment.seal_proportion must be in (0, 1]"
  | .maxOpenAttempts => "segment.max_open_attempts must be > 0"
  | .perCollection => "channels.per_collection must be > 0"
  | .buffer => "channels.buffer must be > 0"
  | .expectedNodes => "cluster.expected_nodes must be > 0"
  | .silenceOrReap => "cluster.silence_timeout_secs and cluster.reap_interval_secs must be > 0"
  | .idBlockSize => "meta.id_block_size must be > 0"

namespace Settings

/-- The first fault of the settings, if there is one. -/
def validate (settings : Settings) : Except SettingsFault Unit := do
  if settings.segment.sizeBytes = 0 then throw .sizeBytes
  unless 0 < settings.segment.sealProportion && settings.segment.sealProportion ≤ 1 do
    throw .sealProportion
  if settings.segment.maxOpenAttempts = 0 then throw .maxOpenAttempts
  if settings.channels.perCollection = 0 then throw .perCollection
  if settings.channels.buffer = 0 then throw .buffer
  if settings.cluster.expectedNodes = 0 then throw .expectedNodes
  if settings.cluster.silenceTimeoutSecs = 0 ∨ settings.cluster.reapIntervalSecs = 0 then
    throw .silenceOrReap
  if settings.store.idBlockSize = 0 then throw .idBlockSize

end Settings

/-! ## Records -/

def SegmentSettings.ofJson? (value : Json) : Option SegmentSettings := do
  let fields ← Json.Fields.ofJson?
    ["size_bytes", "seal_proportion", "grant_lifetime_ms", "max_open_attempts"] value
  return {
    sizeBytes := ← fields.required "size_bytes" Json.uint64?
    sealProportion := ← fields.required "seal_proportion" Json.float?
    grantLifetimeMs := ← fields.required "grant_lifetime_ms" Json.uint64?
    maxOpenAttempts := ← fields.required "max_open_attempts" Json.uint32? }

def ChannelSettings.ofJson? (value : Json) : Option ChannelSettings := do
  let fields ← Json.Fields.ofJson?
    ["per_collection", "insert_prefix", "time_tick", "statistics", "flush_completed", "buffer"]
    value
  return {
    perCollection := ← fields.required "per_collection" Json.uint32?
    insertStem := ← fields.required "insert_prefix" Json.string?
    timeTick := ← fields.required "time_tick" Json.string?
    statistics := ← fields.required "statistics" Json.string?
    flushCompleted := ← fields.required "flush_completed" Json.string?
    buffer := ← fields.required "buffer" Json.uint64? }

def ClusterSettings.ofJson? (value : Json) : Option ClusterSettings := do
  let fields ← Json.Fields.ofJson?
    ["coordinator_id", "expected_nodes", "formation_timeout_secs", "silence_timeout_secs",
      "reap_interval_secs"] value
  return {
    coordinator := ← fields.required "coordinator_id" Json.int64?
    expectedNodes := ← fields.required "expected_nodes" Json.uint64?
    formationTimeoutSecs := ← fields.required "formation_timeout_secs" Json.uint64?
    silenceTimeoutSecs := ← fields.required "silence_timeout_secs" Json.uint64?
    reapIntervalSecs := ← fields.required "reap_interval_secs" Json.uint64? }

def StoreSettings.ofJson? (value : Json) : Option StoreSettings := do
  let fields ← Json.Fields.ofJson? ["root_path", "sqlite_url", "id_block_size"] value
  return {
    root := ← fields.required "root_path" Json.string?
    sqliteUrl := ← fields.required "sqlite_url" Json.string?
    idBlockSize := ← fields.required "id_block_size" Json.uint64? }

def LoggingSettings.ofJson? (value : Json) : Option LoggingSettings := do
  let fields ← Json.Fields.ofJson? ["level", "format"] value
  return {
    level := ← fields.required "level" Json.string?
    format := ← fields.required "format" Json.string? }

/-- A section that is left out has its defaults; one that is there must be complete. -/
def Settings.ofJson? (value : Json) : Option Settings := do
  let fields ← Json.Fields.ofJson? ["segment", "channels", "cluster", "meta", "logging"] value
  return {
    segment := ← fields.defaulted "segment" {} SegmentSettings.ofJson?
    channels := ← fields.defaulted "channels" {} ChannelSettings.ofJson?
    cluster := ← fields.defaulted "cluster" {} ClusterSettings.ofJson?
    store := ← fields.defaulted "meta" {} StoreSettings.ofJson?
    logging := ← fields.defaulted "logging" {} LoggingSettings.ofJson? }

end IngestCoordinator
