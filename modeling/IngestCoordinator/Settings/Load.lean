-- SUMMARY: Loading settings from files and from the environment.
import IngestCoordinator.Settings.Environment
import IngestCoordinator.Settings.Format.Ini
import IngestCoordinator.Settings.Format.Json
import IngestCoordinator.Settings.Format.Json5
import IngestCoordinator.Settings.Format.Ron
import IngestCoordinator.Settings.Format.Toml
import IngestCoordinator.Settings.Format.Yaml

/-!
# Loading settings

The file that the environment names comes first, then the file in the working
directory and the environment variables, each over what came before; what stands in
the end is put over the defaults. The result must be complete and usable. Main
statement: `merged_value?`.
-/

namespace IngestCoordinator

namespace Settings

/-- A file with settings. -/
structure File where
  name : String
  text : String
  deriving Repr

/-- What stands behind the last point in a file's name; a point in front of it separates nothing. -/
def File.ending (file : File) : String :=
  let last := ((file.name.toList.splitOn '/').getLast?).getD []
  match (last.splitOn '.').reverse with
  | [] | [_] | [_, []] => ""
  | ending :: _ => String.ofList ending

/-- Why no settings were loaded. -/
inductive LoadFault where
  /-- A file cannot be read, or a value is missing or of the wrong kind. -/
  | unreadable
  | unusable (fault : SettingsFault)
  deriving DecidableEq, Repr

/-- How files with an ending are read, if it is known. -/
def readerOf? (ending : String) : Option (String → Option Source) :=
  match ending with
  | "toml" => some TomlFile.source?
  | "json" => some JsonFile.source?
  | "json5" => some Json5File.source?
  | "ron" => some RonFile.source?
  | "yaml" | "yml" => some YamlFile.source?
  | "ini" => some IniFile.source?
  | _ => none

/-- What a file gives. -/
def File.source? (file : File) : Option Source :=
  (readerOf? file.ending).bind fun read? => read? file.text

/-- What a file gives that may be absent or of an unknown kind: then it gives nothing. -/
def optionalSource? : Option File → Option Source
  | none => some []
  | some file =>
    match readerOf? file.ending with
    | none => some []
    | some read? => read? file.text

/-- The names under which a file in the working directory is looked for. -/
def nearbyNames : List String :=
  ["toml", "json", "yaml", "yml", "ini", "ron", "json5"].map ("datacoord." ++ ·)

/-- What the sources say together: each over those before it, and all over the defaults. -/
def merged (sources : List Source) : Source :=
  entries {} ++ Source.standing sources.flatten

/-- The settings that the sources make, if they are complete and usable. -/
def resolve (sources : List Source) : Except LoadFault Settings :=
  match ofSource? (merged sources) with
  | none => .error .unreadable
  | some settings =>
    match settings.validate with
    | .error fault => .error (.unusable fault)
    | .ok () => .ok settings

/-- Loads settings from a file, which must be there. -/
def loadFile (file : Option File) : Except LoadFault Settings :=
  match file.bind File.source? with
  | none => .error .unreadable
  | some source => resolve [source]

/-- Loads settings from the named file, the file in the working directory and the environment. -/
def load (named nearby : Option File) (environment : List (String × String)) :
    Except LoadFault Settings :=
  let nearby := nearby.filter fun file => nearbyNames.contains file.name
  match optionalSource? named, optionalSource? nearby with
  | some named, some nearby => resolve [named, nearby, Environment.source environment]
  | _, _ => .error .unreadable

/-- A path has the value that the sources give it, or else the default, if they leave it alone. -/
theorem merged_value? (sources : List Source) (path : List String) :
    Source.value? (merged sources) path =
      if ((Source.standing sources.flatten).decisive? path).isSome
      then Source.value? sources.flatten path
      else Source.value? (entries {}) path := by
  simp [merged, Source.value?_append, Source.value?_standing]

end Settings

end IngestCoordinator
