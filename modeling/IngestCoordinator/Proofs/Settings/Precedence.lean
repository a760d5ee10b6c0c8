-- SUMMARY: Which source a setting is taken from if several sources set it.
import IngestCoordinator.Settings.Load

/-!
# Precedence of sources

Every field of the settings has a path of its own and a type that plain values are
converted to. As long as no source gives a value to a whole section or to something
below a setting, a field of the settings that are loaded comes from the first of these
that sets it: the environment, the file in the working directory, the named file, and
the defaults.
-/

namespace IngestCoordinator.Settings

/-! ## The settings one by one -/

theorem uint64?_toNat (n : UInt64) : Scalar.uint64? (.int n.toNat) = some n := by
  have hlt := n.toNat_lt
  have hrange : 0 ≤ (n.toNat : Int) ∧ (n.toNat : Int) < 0x10000000000000000 := by omega
  rw [Scalar.uint64?, if_pos hrange, Int.toNat_natCast, UInt64.ofNat_toNat]

theorem uint32?_toNat (n : UInt32) : Scalar.uint32? (.int n.toNat) = some n := by
  have hword := uint64?_toNat n.toUInt64
  have hsmall : n.toUInt64 ≤ 0xFFFFFFFF := by
    have hlt := n.toNat_lt
    have hbound : (0xFFFFFFFF : UInt64).toNat = 4294967295 := by decide
    apply UInt64.le_iff_toNat_le.2
    rw [hbound, UInt32.toNat_toUInt64]
    omega
  rw [UInt32.toNat_toUInt64] at hword
  have hfilter : (some n.toUInt64).filter (· ≤ 0xFFFFFFFF) = some n.toUInt64 :=
    Option.filter_some_pos (decide_eq_true hsmall)
  rw [Scalar.uint32?, hword, hfilter, Option.map_some, UInt32.toUInt32_toUInt64]

theorem int64?_toInt (n : Int64) : Scalar.int64? (.int n.toInt) = some n := by
  have hlt := n.toInt_lt
  have hle := n.le_toInt
  have hrange : -0x8000000000000000 ≤ n.toInt ∧ n.toInt < 0x8000000000000000 := by omega
  simp only [Scalar.int64?, if_pos hrange, Int64.ofInt_toInt]

/-- A type of settings: how plain values are converted to it, and its values as plain values. -/
structure Kind (α : Type) where
  convert? : Scalar → Option α
  plain : α → Scalar
  convert_plain : ∀ value, convert? (plain value) = some value

namespace Kind

def uint64 : Kind UInt64 :=
  ⟨Scalar.uint64?, fun n => .int n.toNat, uint64?_toNat⟩

def uint32 : Kind UInt32 :=
  ⟨Scalar.uint32?, fun n => .int n.toNat, uint32?_toNat⟩

def int64 : Kind Int64 :=
  ⟨Scalar.int64?, fun n => .int n.toInt, int64?_toInt⟩

def real : Kind Float :=
  ⟨Scalar.float?, .real, fun _ => rfl⟩

def text : Kind String :=
  ⟨Scalar.string?, .text, fun _ => rfl⟩

end Kind

/-- A setting: its type, the path under which sources give it, and the field that it becomes. -/
structure Setting where
  {Value : Type}
  kind : Kind Value
  path : List String
  field : Settings → Value

namespace Setting

/-- The setting in some settings, as a source would give it. -/
def entry (setting : Setting) (settings : Settings) : Entry :=
  ⟨setting.path, setting.kind.plain (setting.field settings)⟩

/-- All settings. -/
def all : List Setting :=
  [⟨.uint64, ["segment", "size_bytes"], (·.segment.sizeBytes)⟩,
    ⟨.real, ["segment", "seal_proportion"], (·.segment.sealProportion)⟩,
    ⟨.uint64, ["segment", "grant_lifetime_ms"], (·.segment.grantLifetimeMs)⟩,
    ⟨.uint32, ["segment", "max_open_attempts"], (·.segment.maxOpenAttempts)⟩,
    ⟨.uint32, ["channels", "per_collection"], (·.channels.perCollection)⟩,
    ⟨.text, ["channels", "insert_prefix"], (·.channels.insertStem)⟩,
    ⟨.text, ["channels", "time_tick"], (·.channels.timeTick)⟩,
    ⟨.text, ["channels", "statistics"], (·.channels.statistics)⟩,
    ⟨.text, ["channels", "flush_completed"], (·.channels.flushCompleted)⟩,
    ⟨.uint64, ["channels", "buffer"], (·.channels.buffer)⟩,
    ⟨.int64, ["cluster", "coordinator_id"], (·.cluster.coordinator)⟩,
    ⟨.uint64, ["cluster", "expected_nodes"], (·.cluster.expectedNodes)⟩,
    ⟨.uint64, ["cluster", "formation_timeout_secs"], (·.cluster.formationTimeoutSecs)⟩,
    ⟨.uint64, ["cluster", "silence_timeout_secs"], (·.cluster.silenceTimeoutSecs)⟩,
    ⟨.uint64, ["cluster", "reap_interval_secs"], (·.cluster.reapIntervalSecs)⟩,
    ⟨.text, ["meta", "root_path"], (·.store.root)⟩,
    ⟨.text, ["meta", "sqlite_url"], (·.store.sqliteUrl)⟩,
    ⟨.uint64, ["meta", "id_block_size"], (·.store.idBlockSize)⟩,
    ⟨.text, ["logging", "level"], (·.logging.level)⟩,
    ⟨.text, ["logging", "format"], (·.logging.format)⟩]

theorem entries_eq (settings : Settings) : settings.entries = all.map (entry · settings) := rfl

/-- Settings made of a source have a value for every setting, converted to its type. -/
theorem field_of_ofSource? {source : Source} {settings : Settings}
    (h : ofSource? source = some settings) :
    ∀ setting ∈ all,
      (source.value? setting.path).bind setting.kind.convert? = some (setting.field settings) := by
  -- The values are read one after the other, in the order of the fields.
  obtain ⟨_, h₁, h⟩ := Option.bind_eq_some_iff.1 h
  obtain ⟨_, h₂, h⟩ := Option.bind_eq_some_iff.1 h
  obtain ⟨_, h₃, h⟩ := Option.bind_eq_some_iff.1 h
  obtain ⟨_, h₄, h⟩ := Option.bind_eq_some_iff.1 h
  obtain ⟨_, h₅, h⟩ := Option.bind_eq_some_iff.1 h
  obtain ⟨_, h₆, h⟩ := Option.bind_eq_some_iff.1 h
  obtain ⟨_, h₇, h⟩ := Option.bind_eq_some_iff.1 h
  obtain ⟨_, h₈, h⟩ := Option.bind_eq_some_iff.1 h
  obtain ⟨_, h₉, h⟩ := Option.bind_eq_some_iff.1 h
  obtain ⟨_, h₁₀, h⟩ := Option.bind_eq_some_iff.1 h
  obtain ⟨_, h₁₁, h⟩ := Option.bind_eq_some_iff.1 h
  obtain ⟨_, h₁₂, h⟩ := Option.bind_eq_some_iff.1 h
  obtain ⟨_, h₁₃, h⟩ := Option.bind_eq_some_iff.1 h
  obtain ⟨_, h₁₄, h⟩ := Option.bind_eq_some_iff.1 h
  obtain ⟨_, h₁₅, h⟩ := Option.bind_eq_some_iff.1 h
  obtain ⟨_, h₁₆, h⟩ := Option.bind_eq_some_iff.1 h
  obtain ⟨_, h₁₇, h⟩ := Option.bind_eq_some_iff.1 h
  obtain ⟨_, h₁₈, h⟩ := Option.bind_eq_some_iff.1 h
  obtain ⟨_, h₁₉, h⟩ := Option.bind_eq_some_iff.1 h
  obtain ⟨_, h₂₀, ⟨⟩⟩ := Option.bind_eq_some_iff.1 h
  simp only [all, List.forall_mem_cons]
  exact ⟨h₁, h₂, h₃, h₄, h₅, h₆, h₇, h₈, h₉, h₁₀, h₁₁, h₁₂, h₁₃, h₁₄, h₁₅, h₁₆, h₁₇, h₁₈, h₁₉, h₂₀,
    List.forall_mem_nil _⟩

/-- No path of a setting is part of another. -/
theorem paths_apart : (all.map path).Pairwise fun p q =>
    (q.isPrefixOf p || p.isPrefixOf q) = false := by
  decide +kernel

end Setting

/-! ## Several sources -/

namespace Source

variable {source earlier later : Source} {sources : List Source} {path : List String}

/-- What the source says about a path it says about the path itself. -/
def Plain (source : Source) (path : List String) : Prop :=
  ∀ entry ∈ source, entry.touches path = true → entry.path = path

instance (source : Source) (path : List String) : Decidable (source.Plain path) :=
  inferInstanceAs (Decidable (∀ entry ∈ source, entry.touches path = true → entry.path = path))

theorem Plain.flatten (h : ∀ source ∈ sources, Plain source path) :
    Plain sources.flatten path := by
  intro entry hmem
  obtain ⟨source, hsource, hentry⟩ := List.mem_flatten.1 hmem
  exact h source hsource entry hentry

/-- A plain source sets the paths that it says something about. -/
theorem Plain.decisive?_isSome (h : source.Plain path) :
    (source.decisive? path).isSome = (source.value? path).isSome := by
  cases hdecisive : source.decisive? path with
  | none => simp [value?, hdecisive]
  | some entry =>
    have hmem : entry ∈ source := by simpa using List.mem_of_find?_eq_some hdecisive
    have htouches : entry.touches path = true := by simpa using List.find?_some hdecisive
    simp [value?, hdecisive, h entry hmem htouches]

theorem Plain.value?_append (h : later.Plain path) :
    value? (earlier ++ later) path = (later.value? path).or (earlier.value? path) := by
  rw [Source.value?_append, h.decisive?_isSome]
  cases later.value? path <;> simp

/-- Of plain sources in a row the last that sets a path decides it. -/
theorem value?_flatten (h : ∀ source ∈ sources, Plain source path) :
    value? sources.flatten path = sources.reverse.findSome? fun source => source.value? path := by
  induction sources with
  | nil => rfl
  | cons source sources ih =>
    obtain ⟨-, hrest⟩ := List.forall_mem_cons.1 h
    have hflat : value? (source ++ sources.flatten) path = _ :=
      (Plain.flatten hrest).value?_append
    simpa [List.findSome?_append, ih hrest] using hflat

/-- Entries that do not touch each other all have a say. -/
theorem value?_of_mem {entry : Entry} (hapart : source.Pairwise fun x y => y.touches x.path = false)
    (hmem : entry ∈ source) : source.value? entry.path = some entry.value := by
  induction source with
  | nil => cases hmem
  | cons first later ih =>
    obtain ⟨hfirst, hlater⟩ := List.pairwise_cons.1 hapart
    rw [value?_cons]
    rcases List.mem_cons.1 hmem with rfl | hmem
    · have hsilent : decisive? later entry.path = none :=
        (decisive?_eq_none_iff later entry.path).2 hfirst
      simp [hsilent]
    · have htouches : entry.touches entry.path = true := by simp [Entry.touches]
      have hspoken : (decisive? later entry.path).isSome := by
        simpa [decisive?] using ⟨entry, hmem, htouches⟩
      simp [hspoken, ih hlater hmem]

end Source

/-- Settings are found again in the source that lists them. -/
theorem value?_entries (settings : Settings) {setting : Setting} (hmem : setting ∈ Setting.all) :
    Source.value? settings.entries setting.path =
      some (setting.kind.plain (setting.field settings)) := by
  have hapart : settings.entries.Pairwise fun x y => y.touches x.path = false := by
    rw [Setting.entries_eq]
    exact List.pairwise_map.2 (List.pairwise_map.1 Setting.paths_apart)
  have hentry : setting.entry settings ∈ settings.entries := by
    rw [Setting.entries_eq]
    exact List.mem_map_of_mem hmem
  exact Source.value?_of_mem hapart hentry

/-- The sources over the defaults: the last that sets a path decides it, or else the default. -/
theorem value?_merged {sources : List Source} {path : List String}
    (h : ∀ source ∈ sources, source.Plain path) :
    Source.value? (merged sources) path =
      (sources.reverse.findSome? fun source => source.value? path).or
        (Source.value? (entries {}) path) := by
  have hstanding : Source.Plain (Source.standing sources.flatten) path :=
    fun entry hmem => Source.Plain.flatten h entry (Source.mem_of_mem_standing hmem)
  rw [merged_value?, hstanding.decisive?_isSome, Source.value?_standing, Source.value?_flatten h]
  cases sources.reverse.findSome? fun source => source.value? path <;> rfl

/-! ## Precedence -/

/-- The value of a setting by the first of some sources that sets it, or else its default. -/
def Setting.first? (setting : Setting) (sources : List Source) : Option setting.Value :=
  match sources.findSome? fun source => source.value? setting.path with
  | some value => setting.kind.convert? value
  | none => some (setting.field {})

theorem first?_of_ofSource? {sources : List Source} {settings : Settings} {setting : Setting}
    (h : ofSource? (merged sources) = some settings) (hmem : setting ∈ Setting.all)
    (hplain : ∀ source ∈ sources, source.Plain setting.path) :
    setting.first? sources.reverse = some (setting.field settings) := by
  have hfield := Setting.field_of_ofSource? h setting hmem
  rw [value?_merged hplain, value?_entries {} hmem] at hfield
  unfold Setting.first?
  cases hfound : sources.reverse.findSome? fun source => source.value? setting.path with
  | some value => simpa [hfound] using hfield
  | none => simpa [hfound, setting.kind.convert_plain] using hfield

theorem ofSource?_of_resolve {sources : List Source} {settings : Settings}
    (h : resolve sources = .ok settings) : ofSource? (merged sources) = some settings := by
  unfold resolve at h
  split at h
  · cases h
  · rename_i found hfound
    split at h
    · cases h
    · cases h
      exact hfound

/-- What the file in the working directory gives, if it has one of the names looked for. -/
def nearbySource? (nearby : Option File) : Option Source :=
  optionalSource? (nearby.filter fun file => nearbyNames.contains file.name)

/--
Every field of the settings comes from the first source that sets it: the environment,
then the file in the working directory, then the named file, then the defaults.
-/
theorem loaded_from_first_source {named nearby : Option File} {environment : List (String × String)}
    {first second : Source} {settings : Settings}
    (hload : load named nearby environment = .ok settings)
    (hnamed : optionalSource? named = some first) (hnearby : nearbySource? nearby = some second)
    {setting : Setting} (hmem : setting ∈ Setting.all)
    (hplain : ∀ source ∈ [first, second, Environment.source environment],
      source.Plain setting.path) :
    setting.first? [Environment.source environment, second, first] =
      some (setting.field settings) := by
  simp only [nearbySource?] at hnearby
  simp only [load, hnamed, hnearby] at hload
  exact first?_of_ofSource? (ofSource?_of_resolve hload) hmem hplain

/-! ## A setting in two files -/

/-- A file that the environment may name. -/
def namedFile : File :=
  ⟨"settings.toml", "[segment]\nsize_bytes = 4096\nmax_open_attempts = 9\n"⟩

/-- A file in the working directory that sets one of the same settings. -/
def nearbyFile : File :=
  ⟨"datacoord.toml", "[segment]\nsize_bytes = 8192\n[channels]\nbuffer = 22\n"⟩

/-- A variable that sets a setting of the file in the working directory. -/
def bufferVariable : List (String × String) :=
  [("AKIDB_DATACOORD__CHANNELS__BUFFER", "33")]

def namedEntries : Source :=
  [⟨["segment", "size_bytes"], .int 4096⟩, ⟨["segment", "max_open_attempts"], .int 9⟩]

def nearbyEntries : Source :=
  [⟨["segment", "size_bytes"], .int 8192⟩, ⟨["channels", "buffer"], .int 22⟩]

def variableEntries : Source :=
  [⟨["channels", "buffer"], .int 33⟩]

theorem source_namedFile : optionalSource? (some namedFile) = some namedEntries := by
  decide +kernel

theorem source_nearbyFile : nearbySource? (some nearbyFile) = some nearbyEntries := by
  decide +kernel

theorem source_bufferVariable : Environment.source bufferVariable = variableEntries := by
  decide +kernel

theorem load_files : load (some namedFile) (some nearbyFile) bufferVariable =
    resolve [namedEntries, nearbyEntries, variableEntries] := by
  have hnearby := source_nearbyFile
  simp only [nearbySource?] at hnearby
  simp only [load, source_namedFile, hnearby, source_bufferVariable]

theorem loads_files : ∃ settings,
    load (some namedFile) (some nearbyFile) bufferVariable = .ok settings := by
  have hresolved : (resolve [namedEntries, nearbyEntries, variableEntries]).toOption.isSome := by
    decide +kernel
  rw [load_files]
  cases hresult : resolve [namedEntries, nearbyEntries, variableEntries] with
  | ok settings => exact ⟨settings, rfl⟩
  | error fault => simp [hresult, Except.toOption] at hresolved

/-- Each of the three sources has the last word on something. -/
theorem loaded_from_three_sources :
    ∃ settings, load (some namedFile) (some nearbyFile) bufferVariable = .ok settings ∧
      settings.segment.maxOpenAttempts = 9 ∧ settings.segment.sizeBytes = 8192 ∧
      settings.channels.buffer = 33 ∧ settings.channels.perCollection = 2 := by
  obtain ⟨settings, hload⟩ := loads_files
  have hplain : ∀ setting ∈ Setting.all,
      ∀ source ∈ [namedEntries, nearbyEntries, Environment.source bufferVariable],
        source.Plain setting.path := by
    rw [source_bufferVariable]
    decide +kernel
  have hfrom (n : Nat) (hn : n < Setting.all.length) :=
    loaded_from_first_source hload source_namedFile source_nearbyFile
      (List.getElem_mem hn) (hplain _ (List.getElem_mem hn))
  rw [source_bufferVariable] at hfrom
  have hattempts := hfrom 3 (by decide)
  have hsize := hfrom 0 (by decide)
  have hbuffer := hfrom 9 (by decide)
  have hdefault := hfrom 4 (by decide)
  refine ⟨settings, hload, ?_, ?_, ?_, ?_⟩
  · exact Option.some.inj (hattempts.symm.trans rfl)
  · exact Option.some.inj (hsize.symm.trans rfl)
  · exact Option.some.inj (hbuffer.symm.trans rfl)
  · exact Option.some.inj (hdefault.symm.trans rfl)

/-- The file in the working directory has the last word on what the named file sets, too. -/
theorem nearby_file_overrides_named :
    ∃ first second settings, optionalSource? (some namedFile) = some first ∧
      nearbySource? (some nearbyFile) = some second ∧
      load (some namedFile) (some nearbyFile) bufferVariable = .ok settings ∧
      ∃ setting ∈ Setting.all, setting.first? [Environment.source bufferVariable, first, second] ≠
        some (setting.field settings) := by
  obtain ⟨settings, hload⟩ := loads_files
  refine ⟨_, _, settings, source_namedFile, source_nearbyFile, hload, Setting.all[0],
    List.getElem_mem _, ?_⟩
  have hresolved := load_files.symm.trans hload
  have hfield := first?_of_ofSource? (ofSource?_of_resolve hresolved)
    (List.getElem_mem (n := 0) (by decide)) (by decide +kernel)
  rw [← hfield, source_bufferVariable]
  change some (4096 : UInt64) ≠ some 8192
  decide

end IngestCoordinator.Settings
