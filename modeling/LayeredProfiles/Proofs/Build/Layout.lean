import LayeredProfiles.Build.Compile
import LayeredProfiles.Proofs.Build.Emission
import LayeredProfiles.Proofs.Document.Placement

set_option autoImplicit false

/-!
# The conventional layout

Under the conventional layout everything has its place below the root directory. No output is in the
place of another one or of a temporary file, none is below the directory of the fragments, and none
is the parameter library. The documents are the only outputs that are named like documents.

## Main definitions

* `BuildConfig.Conventional` — a configuration with the conventional layout.
* `Sites` — where a build reads and writes under the conventional layout.

## Main results

* `BuildConfig.conventional_forRoot` — which configurations have the conventional layout.
* `Sites.nodup_locations`, `Sites.location_ne_scratch`, `Sites.nodup_touchedBy` — outputs do not get in
  each other's way.
* `Sites.not_below_fragments`, `Sites.params_not_touched` — no output is read by the next build.
* `Sites.not_below_schema` — no output is beside the schema.
* `Sites.eq_of_named` — no output is taken for another document.
-/

namespace LayeredProfiles

/-- A configuration with the conventional layout below a root directory. -/
structure BuildConfig.Conventional (config : BuildConfig) (root : Path) : Prop where
  /-- The directory of the fragments. -/
  profilesDir : config.profilesDir = root.join (.ofNames ["vehicle_profiles"])
  /-- The parameter library. -/
  paramsPath : config.paramsPath = root.join (.ofNames [".vehicle_profiles", "params.json"])
  /-- The schema. -/
  schemaPath : config.schemaPath = root.join (.ofNames [".vehicle_profiles", "schema.json"])
  /-- The artifact. -/
  artifactPath : config.artifactPath = root.join (.ofNames ["vehicle_profiles.json"])
  /-- The note files have a name. -/
  noteFile : Path.IsName config.noteFile
  /-- The documents. -/
  docsRoot : config.docs.root = root.join (.ofNames ["docs", "content"])
  /-- The document of supported vehicles is found by its ending. -/
  vehiclesPattern :
    Pattern.parse config.docs.vehiclesPattern = .ok (.naming Document.vehiclesEnding)
  /-- The document of supported parameters is found by its ending. -/
  parametersPattern :
    Pattern.parse config.docs.parametersPattern = .ok (.naming Document.parametersEnding)
  /-- It has a name if it is made. -/
  fallback : Path.IsName config.docs.parametersFallback
  /-- It is found by that name. -/
  fallbackEnding : ∃ part, config.docs.parametersFallback = part ++ Document.parametersEnding
  /-- The document of supported vehicles has the usual body. -/
  vehiclesTemplate : config.docs.vehiclesTemplate = none
  /-- The document of supported parameters has the usual body. -/
  parametersTemplate : config.docs.parametersTemplate = none

/-- Whether the artifact is indented does not matter for the layout. -/
lemma BuildConfig.conventional_forRoot (root : Path) (pretty : Bool) :
    ({ BuildConfig.forRoot root with pretty := pretty }).Conventional root where
  profilesDir := congrArg root.join (by decide : (⟨"vehicle_profiles"⟩ : Path) = .ofNames _)
  paramsPath :=
    congrArg root.join (by decide : (⟨".vehicle_profiles/params.json"⟩ : Path) = .ofNames _)
  schemaPath :=
    congrArg root.join (by decide : (⟨".vehicle_profiles/schema.json"⟩ : Path) = .ofNames _)
  artifactPath := congrArg root.join (by decide : (⟨"vehicle_profiles.json"⟩ : Path) = .ofNames _)
  noteFile := by change Path.IsName "note.md"; decide
  docsRoot := congrArg root.join (by decide : (⟨"docs/content"⟩ : Path) = .ofNames _)
  vehiclesPattern := by
    change Pattern.parse DocsConfig.default.vehiclesPattern = _
    rw [Pattern.parse, Pattern.read?_vehiclesPattern]
  parametersPattern := by
    change Pattern.parse DocsConfig.default.parametersPattern = _
    rw [Pattern.parse, Pattern.read?_parametersPattern]
  fallback := by change Path.IsName "3.Supported_Parameters.md"; decide
  fallbackEnding := ⟨"3", by change "3.Supported_Parameters.md" = _; decide⟩
  vehiclesTemplate := rfl
  parametersTemplate := rfl

/-- Where a build reads and writes under the conventional layout. The documents have places below
the directory of documents. -/
structure Sites where
  /-- The root directory. -/
  root : Location
  /-- The directory of the document of supported vehicles. -/
  vehiclesDir : Location
  /-- The name of this document. -/
  vehiclesName : String
  /-- The directory of the document of supported parameters. -/
  parametersDir : Location
  /-- The name of this document. -/
  parametersName : String

namespace Sites

/-- The directory of the fragments. -/
def fragments (sites : Sites) : Location := sites.root ++ ["vehicle_profiles"]

/-- The parameter library. -/
def params (sites : Sites) : Location := sites.root ++ [".vehicle_profiles", "params.json"]

/-- The directory of the documents. -/
def docs (sites : Sites) : Location := sites.root ++ ["docs", "content"]

/-- The outputs of a build in their places. -/
def outputs (sites : Sites) (outputs : Outputs) : List PlacedFile :=
  [⟨outputs.artifact, sites.root, "vehicle_profiles.json"⟩,
    ⟨outputs.vehicles, sites.docs ++ sites.vehiclesDir, sites.vehiclesName⟩,
    ⟨outputs.parameters, sites.docs ++ sites.parametersDir, sites.parametersName⟩]

/-- The schema in its place. -/
def schema (sites : Sites) (file : RenderedFile) : PlacedFile :=
  ⟨file, sites.root ++ [".vehicle_profiles"], "schema.json"⟩

/-- All that a build may write, in their places. -/
def files (sites : Sites) (outputs : Outputs) (schema : RenderedFile) : List PlacedFile :=
  sites.outputs outputs ++ [sites.schema schema]

/-- The documents are named by convention. -/
structure Named (sites : Sites) : Prop where
  /-- The document of supported vehicles. -/
  vehicles : Document.Named Document.vehiclesEnding (sites.vehiclesDir ++ [sites.vehiclesName])
  /-- The document of supported parameters. -/
  parameters :
    Document.Named Document.parametersEnding (sites.parametersDir ++ [sites.parametersName])

/-- The last letter of the last name of a location. -/
def lastLetter (location : Location) : Option Char :=
  location.getLast?.bind fun name => name.toList.getLast?

section Apart

variable {sites : Sites} {outs : Outputs} {schema : RenderedFile} {file other : PlacedFile}

/-- The last letter of a document. -/
lemma lastLetter_of_named {ending : String} {names base : Location} {c : Char}
    (h : Document.Named ending names) (hlast : ending.toList.getLast? = some c) :
    lastLetter (base ++ names) = some c := by
  obtain ⟨a, b, part, rfl⟩ := h
  simp [lastLetter, List.getLast?_append, hlast]

/-- The last letter of a temporary file. -/
lemma lastLetter_scratch (file : PlacedFile) : lastLetter file.scratch = some 'p' := by
  simp [lastLetter, PlacedFile.scratch, FileTree.scratch, List.getLast?_append]

/-- Where the outputs are. -/
lemma location_of_mem_files (hfile : file ∈ sites.files outs schema) :
    file.location = sites.root ++ ["vehicle_profiles.json"] ∨
      file.location = sites.docs ++ (sites.vehiclesDir ++ [sites.vehiclesName]) ∨
      file.location = sites.docs ++ (sites.parametersDir ++ [sites.parametersName]) ∨
      file.location = sites.root ++ [".vehicle_profiles", "schema.json"] := by
  simp only [files, Sites.outputs, List.cons_append, List.nil_append, List.mem_cons,
    List.not_mem_nil, or_false] at hfile
  rcases hfile with rfl | rfl | rfl | rfl <;> simp [PlacedFile.location, Sites.schema]

/-- The outputs are in different places. -/
lemma nodup_locations (hnamed : sites.Named) :
    ((sites.files outs schema).map PlacedFile.location).Nodup := by
  have hdocuments : sites.vehiclesDir ++ [sites.vehiclesName] ≠
      sites.parametersDir ++ [sites.parametersName] :=
    hnamed.vehicles.ne hnamed.parameters (by decide) (by decide)
  simp [files, Sites.outputs, Sites.schema, docs, PlacedFile.location, hdocuments]

/-- The last letter of an output. -/
lemma lastLetter_location (hnamed : sites.Named) (hfile : file ∈ sites.files outs schema) :
    lastLetter file.location = some 'n' ∨ lastLetter file.location = some 'd' := by
  rcases location_of_mem_files hfile with h | h | h | h <;> rw [h]
  · exact .inl (by simp [lastLetter, List.getLast?_append])
  · exact .inr (lastLetter_of_named hnamed.vehicles rfl)
  · exact .inr (lastLetter_of_named hnamed.parameters rfl)
  · exact .inl (by simp [lastLetter, List.getLast?_append])

/-- No output is in the place of a temporary file. -/
lemma location_ne_scratch (hnamed : sites.Named) (hother : other ∈ sites.files outs schema) :
    other.location ≠ file.scratch := by
  intro hsame
  -- temporary files end in another letter than all outputs
  have hlast := lastLetter_scratch file
  rw [← hsame] at hlast
  rcases lastLetter_location hnamed hother with h | h <;> rw [h] at hlast <;> cases hlast

/-- Where no directory ends in the letters of outputs and temporary files, none is in their way. -/
lemma clear_of_lastLetter (hnamed : sites.Named) {tree : FileTree}
    (hdirectories : ∀ l, tree.at? l = some .directory →
      lastLetter l ∉ [some 'n', some 'd', some 'p']) :
    ∀ file ∈ sites.files outs schema, file.Clear tree := by
  intro file hfile
  refine ⟨fun hscratch => hdirectories _ hscratch ?_, fun hlocation => hdirectories _ hlocation ?_⟩
  · rw [lastLetter_scratch]
    decide
  · rcases lastLetter_location hnamed hfile with h | h <;> rw [h] <;> decide

/-- Files in different places have their temporary files in different places. -/
lemma location_eq_of_scratch_eq (h : file.scratch = other.scratch) :
    file.location = other.location := by
  obtain ⟨hbase, hname⟩ := List.append_inj' h rfl
  rw [List.singleton_inj, String.append_left_inj] at hname
  rw [PlacedFile.location, PlacedFile.location, hbase, hname]

/-- The outputs, the schema and their temporary files are all in different places. -/
lemma nodup_touchedBy (hnamed : sites.Named) :
    (FileTree.touchedBy (sites.files outs schema)).Nodup := by
  refine List.nodup_flatMap.2 ⟨fun file hfile => ?_, ?_⟩
  · simpa using location_ne_scratch hnamed hfile
  · refine (List.pairwise_map.1 (nodup_locations hnamed)).imp_of_mem ?_
    intro file other hfile hother hne
    have hscratch : file.scratch ≠ other.scratch := fun h => hne (location_eq_of_scratch_eq h)
    have hfirst : file.location ≠ other.scratch := location_ne_scratch hnamed hfile
    have hsecond : file.scratch ≠ other.location := (location_ne_scratch hnamed hother).symm
    simp [Function.onFun, List.Disjoint, hne, hscratch, hfirst, hsecond]

/-- No output and no temporary file is below the directory of the fragments. -/
lemma not_below_fragments : ∀ l ∈ FileTree.touchedBy (sites.files outs schema),
    ¬ sites.fragments <+: l := by
  simp [FileTree.touchedBy, files, Sites.outputs, Sites.schema, docs, PlacedFile.location,
    PlacedFile.scratch, FileTree.scratch, fragments, List.prefix_append_right_inj]

/-- No output other than the schema is in the directory of the schema, and no temporary file of one
is. -/
lemma not_below_schema : ∀ l ∈ FileTree.touchedBy (sites.outputs outs),
    ¬ sites.root ++ [".vehicle_profiles"] <+: l := by
  simp [FileTree.touchedBy, Sites.outputs, docs, PlacedFile.location, PlacedFile.scratch,
    FileTree.scratch, List.prefix_append_right_inj]

/-- No output and no temporary file is the parameter library. -/
lemma params_not_touched : sites.params ∉ FileTree.touchedBy (sites.files outs schema) := by
  simp [FileTree.touchedBy, files, Sites.outputs, Sites.schema, docs, PlacedFile.location,
    PlacedFile.scratch, FileTree.scratch, params]

/-- The documents are the only outputs that are named as documents, and no temporary file is. -/
lemma eq_of_named {others : Location} {ending : String} (hlast : ending.toList.getLast? = some 'd')
    (htouched : sites.docs ++ others ∈ FileTree.touchedBy (sites.files outs schema))
    (hothers : Document.Named ending others) :
    others = sites.vehiclesDir ++ [sites.vehiclesName] ∨
      others = sites.parametersDir ++ [sites.parametersName] := by
  obtain ⟨file, hfile, hmem⟩ := List.mem_flatMap.1 htouched
  rcases List.mem_pair.1 hmem with hsame | hsame
  · rcases location_of_mem_files hfile with h | h | h | h <;> rw [h] at hsame
    · simp [docs] at hsame
    · exact .inl (List.append_cancel_left hsame)
    · exact .inr (List.append_cancel_left hsame)
    · simp [docs] at hsame
  · have hletter := lastLetter_scratch file
    rw [← hsame, lastLetter_of_named hothers hlast] at hletter
    cases hletter

end Apart

end Sites

end LayeredProfiles
