import LayeredProfiles.Config.Basic
import LayeredProfiles.FileTree.Reading
import LayeredProfiles.Yaml.Reader

set_option autoImplicit false

/-!
# Reading configurations

A settings file holds the settings that differ from the conventional ones. Keys that are no settings
are ignored; a setting may be given only once.

## Main definitions

* `DocsConfig.read?`, `BuildConfig.read?` — the configuration that settings make.
* `BuildConfig.load` — the configuration in a file, seen from a root directory.
-/

namespace LayeredProfiles

/-- A path that may be missing. -/
def Yaml.optionalPath? (value : Yaml) : Option (Option Path) :=
  if value.isNull then some none else value.text?.map fun s => some ⟨s⟩

/-- A path. -/
def Yaml.path? (value : Yaml) : Option Path :=
  value.text?.map Path.mk

/-- Takes fields into a configuration one by one. The keys of `settings` may occur once. -/
def Yaml.takeFields? {α : Type} (settings : List String)
    (take : α → String → Yaml → Option α) :
    (seen : List String) → α → List (Yaml × Yaml) → Option α
  | _, config, [] => some config
  | seen, config, (key, value) :: rest => do
    let key ← key.text?
    if settings.contains key then
      if seen.contains key then none
      else takeFields? settings take (key :: seen) (← take config key value) rest
    else takeFields? settings take seen config rest

namespace DocsConfig

/-- The settings of the documents. -/
def settings : List String :=
  ["root", "vehicles_pattern", "parameters_pattern", "parameters_fallback", "vehicles_template",
    "parameters_template"]

/-- Takes a setting into a configuration. -/
def take? (config : DocsConfig) (key : String) (value : Yaml) : Option DocsConfig :=
  match key with
  | "root" => value.path?.map fun p => { config with root := p }
  | "vehicles_pattern" => value.text?.map fun s => { config with vehiclesPattern := s }
  | "parameters_pattern" => value.text?.map fun s => { config with parametersPattern := s }
  | "parameters_fallback" => value.text?.map fun s => { config with parametersFallback := s }
  | "vehicles_template" => value.optionalPath?.map fun p => { config with vehiclesTemplate := p }
  | "parameters_template" =>
    value.optionalPath?.map fun p => { config with parametersTemplate := p }
  | _ => some config

/-- The configuration of the documents that settings make. -/
def read? (value : Yaml) : Option DocsConfig := do
  Yaml.takeFields? settings take? [] default (← value.fields?)

end DocsConfig

namespace BuildConfig

/-- The settings of a build. -/
def settings : List String :=
  ["profiles_dir", "params_path", "schema_path", "artifact_path", "schema_enum_path", "note_file",
    "pretty", "max_inheritance_depth", "max_concurrency", "docs"]

/-- Takes a setting into a configuration. -/
def take? (config : BuildConfig) (key : String) (value : Yaml) : Option BuildConfig :=
  match key with
  | "profiles_dir" => value.path?.map fun p => { config with profilesDir := p }
  | "params_path" => value.path?.map fun p => { config with paramsPath := p }
  | "schema_path" => value.path?.map fun p => { config with schemaPath := p }
  | "artifact_path" => value.path?.map fun p => { config with artifactPath := p }
  | "schema_enum_path" => value.text?.map fun s => { config with schemaEnumPath := s }
  | "note_file" => value.text?.map fun s => { config with noteFile := s }
  | "pretty" => value.truth?.map fun b => { config with pretty := b }
  | "max_inheritance_depth" => value.natural?.map fun n => { config with maxDepth := n }
  | "max_concurrency" => value.natural?.map fun n => { config with maxConcurrency := n }
  | "docs" => (DocsConfig.read? value).map fun docs => { config with docs := docs }
  | _ => some config

/-- The configuration that settings make. -/
def read? (value : Yaml) : Option BuildConfig := do
  Yaml.takeFields? settings take? [] default (← value.fields?)

/-- The configuration in a file, whose relative paths are meant below a root directory. -/
def load (tree : FileTree) (file root : Path) : Except Failure BuildConfig := do
  let text ← tree.read file
  match (Yaml.read? text).bind read? with
  | none => .error (.badConfig (.unreadable file))
  | some config =>
    let config := config.below root
    config.check
    .ok config

end BuildConfig

end LayeredProfiles
