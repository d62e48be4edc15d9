import LayeredProfiles.CommandLine.Run

set_option autoImplicit false

/-!
# The places that a command looks at

A command works on a file tree, so that whatever it looks at has to be put there first. Some places
are known from the arguments, others only once the settings file is read, and others again only
once it is known which fragments and documents there are.

## Main definitions

* `Settings.places` — where the settings file may be.
* `BuildConfig.places` — what a configuration names.
* `BuildConfig.placesFrom` — what follows from the fragments and documents in a tree.
* `CommandLine.places` — all places that are known, given what is in a tree so far.
-/

namespace LayeredProfiles

/-- Where the settings file may be. -/
def Settings.places (settings : Settings) : List Path :=
  settings.usualFile :: (settings.path? .config).toList

namespace BuildConfig

/-- A file that may be replaced, and the temporary one beside it. -/
def placesToReplace (file : Path) : List Path :=
  [file, FileOperation.temporary file]

/-- The places that a configuration names. -/
def places (config : BuildConfig) : List Path :=
  [config.profilesDir, config.paramsPath, config.docs.root] ++
    config.docs.vehiclesTemplate.toList ++ config.docs.parametersTemplate.toList ++
    placesToReplace config.schemaPath ++ placesToReplace config.artifactPath

/-- The places that follow from the fragments and documents in a tree: the note files, and the
documents that would be replaced. -/
def placesFrom (config : BuildConfig) (tree : FileTree) : List Path :=
  let notes := ((config.folder.keys tree).toOption.getD []).map config.noteFiles.pathFor
  let vehicles := (Document.locate tree config.docs.root config.docs.vehiclesPattern).toOption
  let parameters := vehicles.bind fun path =>
    (Document.locateParameters tree config.docs path).toOption
  notes ++ (vehicles.toList ++ parameters.toList).flatMap placesToReplace

end BuildConfig

/-- All places that a request looks at, as far as they are known from what is in a tree. -/
def CommandLine.places (environment : OrderedMap String String) (arguments : List String)
    (tree : FileTree) : List Path :=
  match Request.read environment arguments with
  | .run _ before behind =>
    let settings := Settings.of environment before behind
    match settings.config tree with
    | .ok config => settings.places ++ config.places ++ config.placesFrom tree
    | .error _ => settings.places
  | _ => []

end LayeredProfiles
