-- SUMMARY: The command line: starts a coordinator with the given settings, catalog and nodes.
import IngestCoordinator.Coordinator.Lifecycle
import IngestCoordinator.Settings.Load

/-!
# Command line

The options name a file with settings, a catalog, the channel to use without one,
and the nodes to register. The coordinator keeps its records in memory; what it
tells the nodes and how it stands after its start is printed.
-/

namespace IngestCoordinator

namespace CommandLine

/-- The options of a run. -/
structure Options where
  config : Option String := none
  catalog : Option String := none
  ddChannel : String := "akidb-dd"
  nodes : List String := []

/-- Reads the options, each followed by its value. -/
def Options.parse? (options : Options) : List String → Option Options
  | [] => some options
  | "--config" :: path :: rest => { options with config := some path }.parse? rest
  | "--catalog" :: path :: rest => { options with catalog := some path }.parse? rest
  | "--dd-channel" :: name :: rest => { options with ddChannel := name }.parse? rest
  | "--node" :: address :: rest =>
    { options with nodes := options.nodes ++ [address] }.parse? rest
  | _ => none

/-- The file at a path, if it can be read. -/
def readFile? (path : String) : IO (Option Settings.File) := do
  try
    let text ← IO.FS.readFile path
    return some { name := path, text }
  catch _ => return none

/-- The first file with settings in the working directory. -/
def nearbyFile? : List String → IO (Option Settings.File)
  | [] => return none
  | name :: names => do
    match ← readFile? ("config/" ++ name) with
    | some file => return some { file with name }
    | none => nearbyFile? names

/-- The name of the environment variable that gives a value to a path. -/
def variableName (path : List String) : String :=
  (Settings.Environment.stem ++ "__".intercalate path).toUpper

/-- The environment variables that give values to settings. -/
def environment : IO (List (String × String)) := do
  let names := (Settings.entries {}).map fun entry => variableName entry.path
  names.filterMapM fun name => do return (← IO.getEnv name).map (name, ·)

/-- The settings of a run: from the given file, or from all the usual sources. -/
def loadSettings (options : Options) : IO (Except Settings.LoadFault Settings) := do
  match options.config with
  | some path => return Settings.loadFile (← readFile? path)
  | none =>
    let named ←
      match ← IO.getEnv "AKIDB_DATACOORD_CONFIG" with
      | none => pure none
      | some path => readFile? path
    let nearby ← nearbyFile? Settings.nearbyNames
    return Settings.load named nearby (← environment)

/-- The catalog of a run. -/
def loadCatalog (options : Options) : IO (Except Error Catalog) := do
  match options.catalog with
  | none => return .ok (.ofSnapshot { ddChannel := options.ddChannel })
  | some path =>
    try
      let bytes ← IO.FS.readBinFile path
      return Catalog.ofFile path (.ok bytes.data.toList)
    catch error => return Catalog.ofFile path (.error (toString error))

/-- Registers nodes under fresh numbers and starts the coordinator. -/
def registerAndStart : List String → Operation Coordinator Unit
  | [] => do
    Coordinator.start
    modify Coordinator.settle
  | address :: addresses => do
    let id ← Coordinator.onAllocator (Allocator.onIds IdSource.drawId)
    let _ ← Coordinator.register address ⟨id⟩
    registerAndStart addresses

/-- A value as text. -/
def text (value : Json) : String :=
  (Bytes.text? value.write).getD ""

/-- Why no settings were loaded, in words. -/
def describe : Settings.LoadFault → String
  | .unreadable => "cannot read the settings"
  | .unusable fault => fault.message

/-- An error in words. -/
def describeError (error : Error) : String :=
  error.message?.getD "malformed text"

/-- Runs a coordinator with the given options. -/
def run (options : Options) : IO UInt32 := do
  match ← loadSettings options, ← loadCatalog options with
  | .error fault, _ =>
    IO.eprintln (describe fault)
    return 1
  | _, .error error =>
    IO.eprintln (describeError error)
    return 1
  | .ok settings, .ok catalog =>
    let store : GuardedStore :=
      { metadata := { backend := {}, root := .ofString settings.store.root, records := {} } }
    let ids : IdSource := { clock := { physicalMs := UInt64.ofNat (← IO.monoMsNow) } }
    match registerAndStart options.nodes (.create settings store ids catalog) with
    | .error error _ =>
      IO.eprintln (describeError error)
      return 1
    | .ok () coordinator =>
      for command in coordinator.cluster.outbox.queued do
        IO.println (text command.toJson)
      IO.println (text coordinator.componentStates.toJson)
      return 0

end CommandLine

end IngestCoordinator

/-- Starts a coordinator as the command line says. -/
def main (args : List String) : IO UInt32 := do
  match IngestCoordinator.CommandLine.Options.parse? {} args with
  | some options => IngestCoordinator.CommandLine.run options
  | none =>
    IO.eprintln "options: --config FILE, --catalog FILE, --dd-channel NAME, --node ADDRESS"
    return 2
