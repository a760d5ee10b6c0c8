-- SUMMARY: YAML files as sources of settings.
import IngestCoordinator.Settings.Format.Yaml.Node

/-!
# YAML sources

A file is one document, which must be a mapping, or none, which gives nothing.
-/

namespace IngestCoordinator.Settings.YamlFile

/-- What a file gives. -/
def source? (text : String) : Option Source :=
  match nodes? text with
  | some [] => some []
  | some [.mapping given] => some (given.map Entry.ofNames)
  | _ => none

end IngestCoordinator.Settings.YamlFile
