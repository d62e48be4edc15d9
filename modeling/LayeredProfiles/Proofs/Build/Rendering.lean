import LayeredProfiles.Proofs.Build.Inputs
import LayeredProfiles.Proofs.Build.Layout

set_option autoImplicit false

/-!
# Where outputs are rendered to

If outputs can be rendered under the conventional layout, then the root directory is there and each
output has its place below it. Files in other places may change then, and the outputs themselves may
be written: the next time they are rendered to the same places. The schema has its place below the
root directory as well if it can be read.

## Main definitions

* `FileTree.RootAt` — where the root directory is.
* `Sites.Serve` — the places of the outputs of a build.

## Main results

* `FileTree.RootAt.render_rewritten`, `FileTree.RootAt.document_rewritten` — while files elsewhere
  change, rendering ends in the same way, and the schema stays the same.
* `FileTree.exists_spot_schema` — a schema that can be read has its place.
* `Sites.exists_serve` — outputs that can be rendered have their places.
* `Sites.Serve.leads`, `Sites.Serve.leads_schema` — paths lead to these places.
* `Sites.Serve.read_eq_ok_iff` — files in other places are read as before.
* `Sites.Serve.render_rewritten` — once they are written, outputs are rendered to the same places.
-/

namespace LayeredProfiles

variable {config : BuildConfig} {root : Path} {tree after : FileTree} {library : ParameterLibrary}
  {artifact : Artifact} {outs : Outputs} {sites : Sites}

/-- Outputs are rendered if both documents can be located. -/
lemma Build.render_eq_ok_iff (hconfig : config.Conventional root) :
    Build.render config tree library artifact = .ok outs ↔
      ∃ vehicles parameters,
        Document.locate tree config.docs.root config.docs.vehiclesPattern = .ok vehicles ∧
        Document.locateParameters tree config.docs vehicles = .ok parameters ∧
        outs = {
          artifact := ⟨config.artifactPath, artifact.toText config.pretty⟩
          vehicles := ⟨vehicles,
            Document.render Document.vehiclesBody (Document.vehicleRows artifact)⟩
          parameters := ⟨parameters,
            Document.render Document.parametersBody (Document.parameterRows library)⟩ } := by
  unfold Build.render
  dsimp only
  rw [hconfig.vehiclesTemplate, hconfig.parametersTemplate]
  constructor
  · intro h
    obtain ⟨vehicles, hvehicles, h⟩ := Steps.bind_eq_ok_iff.1 h
    obtain ⟨parameters, hparameters, h⟩ := Steps.bind_eq_ok_iff.1 h
    exact ⟨vehicles, parameters, hvehicles, hparameters, (Except.ok.inj h).symm⟩
  · rintro ⟨vehicles, parameters, hvehicles, hparameters, rfl⟩
    exact Steps.bind_eq_ok_iff.2 ⟨vehicles, hvehicles,
      Steps.bind_eq_ok_iff.2 ⟨parameters, hparameters, rfl⟩⟩

/-! ## The root directory -/

namespace FileTree

variable {base : Location} {touched : List Location}

/-- The root directory is at a location, in a tree of real files. -/
structure RootAt (tree : FileTree) (root : Path) (base : Location) : Prop where
  /-- The tree stands for real files. -/
  grounded : tree.Grounded
  /-- Paths go on from there. -/
  reach : tree.reach root = .ok base
  /-- The directory is there. -/
  directory : tree.at? base = some .directory

namespace RootAt

variable (h : tree.RootAt root base)

include h

/-- The root directory stays where it is while files change. -/
lemma rewritten (hchanged : Rewritten tree after touched) : after.RootAt root base :=
  ⟨hchanged.grounded h.grounded, hchanged.reach h.reach, (hchanged.directory base).2 h.directory⟩

/-- A name seen from the root directory leads to what is under it there. -/
lemma resolve {name : String} (hname : Path.IsName name) :
    tree.resolve (root.join (.ofNames [name])) = .ok (base ++ [name]) :=
  (spot_of_reach hname h.reach h.directory).resolve

variable (hconfig : config.Conventional root)

include hconfig

/-- The directory of the fragments has its place. -/
lemma resolve_profilesDir : tree.resolve config.profilesDir = .ok (base ++ ["vehicle_profiles"]) := by
  rw [hconfig.profilesDir]
  exact h.resolve (by decide)

variable (hchanged : Rewritten tree after touched)

include hchanged

section Schema

variable (hspared : ∀ l ∈ touched, ¬ base ++ [".vehicle_profiles"] <+: l)

include hspared

/-- The schema is read as before while files outside its directory change. -/
lemma read_schema : after.read config.schemaPath = tree.read config.schemaPath := by
  have hjoin : (root.join (.ofNames [".vehicle_profiles"])).join (.ofNames ["schema.json"]) =
      root.join (.ofNames [".vehicle_profiles", "schema.json"]) :=
    Path.join_ofNames_append (by simp) (by decide) (by decide)
  unfold read
  rw [hconfig.schemaPath, ← hjoin,
    hchanged.readText_ofNames (h.resolve (by decide)) hspared (by decide)]

/-- The document of the schema is the same. -/
lemma document_rewritten :
    config.schemaFile.document after = config.schemaFile.document tree := by
  have hpath : config.schemaFile.path = config.schemaPath := rfl
  unfold SchemaFile.document
  rw [hpath, h.read_schema hconfig hchanged hspared]

/-- The document with the names of a library is the same. -/
lemma withNames_rewritten (library : ParameterLibrary) :
    config.schemaFile.withNames after library = config.schemaFile.withNames tree library := by
  unfold SchemaFile.withNames
  rw [h.document_rewritten hconfig hchanged hspared]

end Schema

/-- While files outside the directory of documents change, rendering ends in the same way, be it with
a failure. -/
lemma render_rewritten (hspared : ∀ l ∈ touched, ¬ base ++ ["docs", "content"] <+: l) :
    Build.render config after library artifact = Build.render config tree library artifact := by
  have hdocs : ∀ location, tree.resolve config.docs.root = .ok location →
      ∀ l ∈ touched, ¬ location <+: l := by
    intro location hresolve
    rw [hconfig.docsRoot] at hresolve
    obtain ⟨found, hreach, rfl, -⟩ := resolve_join_ofNames (by simp) (by decide) hresolve
    rw [h.reach] at hreach
    cases hreach
    exact hspared
  have hfound := Document.candidates_rewritten hchanged hdocs
  have htarget : Document.locateParameters after config.docs =
      Document.locateParameters tree config.docs := by
    funext vehicles
    rw [Document.locateParameters, Document.locateParameters, hfound]
  unfold Build.render Document.locate
  dsimp only
  rw [hconfig.vehiclesTemplate, hconfig.parametersTemplate, hfound, htarget]
  rfl

end RootAt

/-- A schema that can be read is a file in its place below the root directory. -/
lemma exists_spot_schema (hconfig : config.Conventional root) (hgrounded : tree.Grounded)
    {text : String} (hread : tree.read config.schemaPath = .ok text) :
    ∃ base, tree.RootAt root base ∧
      tree.Spot config.schemaPath (base ++ [".vehicle_profiles"]) "schema.json" ∧
      ∃ content, tree.at? (base ++ [".vehicle_profiles"] ++ ["schema.json"]) =
        some (.file content) := by
  obtain ⟨location, hresolve, hentry⟩ := Steps.bind_eq_ok_iff.1 (Steps.mapError_eq_ok_iff.1 hread)
  rw [hconfig.schemaPath] at hresolve ⊢
  obtain ⟨base, hreach, rfl, hdirectory⟩ := resolve_join_ofNames (by simp) (by decide) hresolve
  have hspot := spot_join hgrounded (by decide) (by decide : Path.IsName "schema.json") hreach
    hdirectory
  have hroot : tree.at? base = some .directory :=
    hgrounded.directory_above (List.cons_ne_nil _ []) hdirectory
  refine ⟨base, ⟨hgrounded, hreach, hroot⟩, hspot, ?_⟩
  rw [List.append_assoc]
  split at hentry <;> cases hentry
  next hfile => exact ⟨_, hfile⟩

end FileTree

namespace Sites

/-- The outputs of a build have these places in a tree of real files. -/
structure Serve (sites : Sites) (config : BuildConfig) (root : Path) (tree : FileTree)
    (outs : Outputs) : Prop where
  /-- The tree stands for real files. -/
  grounded : tree.Grounded
  /-- Paths go on from the root directory. -/
  reach : tree.reach root = .ok sites.root
  /-- Where the directory of documents is. -/
  resolve : tree.resolve config.docs.root = .ok sites.docs
  /-- The directory of documents is there. -/
  directory : tree.at? sites.docs = some .directory
  /-- The artifact. -/
  artifactPath : outs.artifact.path = config.artifactPath
  /-- The document of supported vehicles. -/
  vehiclesPath : outs.vehicles.path =
    config.docs.root.join (.ofNames (sites.vehiclesDir ++ [sites.vehiclesName]))
  /-- The document of supported parameters. -/
  parametersPath : outs.parameters.path =
    config.docs.root.join (.ofNames (sites.parametersDir ++ [sites.parametersName]))
  /-- The document of supported vehicles is the only one. -/
  vehicles : Document.Place tree sites.docs Document.vehiclesEnding sites.vehiclesDir
    sites.vehiclesName
  /-- The document of supported parameters is the only one or will be. -/
  parameters : Document.Place tree sites.docs Document.parametersEnding sites.parametersDir
    sites.parametersName

/-- The documents are named by convention. -/
lemma Serve.named (h : sites.Serve config root tree outs) : sites.Named :=
  ⟨h.vehicles.named, h.parameters.named⟩

/-- Documents are looked for in the directory of documents. -/
lemma Serve.searched (h : sites.Serve config root tree outs) {text ending : String}
    (hparse : Pattern.parse text = .ok (.naming ending)) :
    Document.Searched tree config.docs.root sites.docs text (.naming ending) :=
  ⟨h.grounded, h.resolve, h.directory, hparse⟩

/-- Outputs that can be rendered have their places. -/
lemma exists_serve (hconfig : config.Conventional root) (hgrounded : tree.Grounded)
    (h : Build.render config tree library artifact = .ok outs) :
    ∃ sites : Sites, sites.Serve config root tree outs := by
  obtain ⟨vehicles, parameters, hvehicles, hparameters, rfl⟩ :=
    (Build.render_eq_ok_iff hconfig).1 h
  obtain ⟨base, pattern, hsearched⟩ := Document.searched_of_locate hgrounded hvehicles
  obtain rfl : pattern = .naming Document.vehiclesEnding := by
    have hparse := hsearched.parse
    rw [hconfig.vehiclesPattern] at hparse
    exact (Except.ok.inj hparse).symm
  have hsecond : Document.Searched tree config.docs.root base config.docs.parametersPattern
      (.naming Document.parametersEnding) :=
    ⟨hgrounded, hsearched.resolve, hsearched.directory, hconfig.parametersPattern⟩
  have hresolve := hsearched.resolve
  rw [hconfig.docsRoot] at hresolve
  obtain ⟨location, hreach, rfl, -⟩ :=
    FileTree.resolve_join_ofNames (by simp) (by decide) hresolve
  obtain ⟨dir, name, rfl, hplace, -⟩ := Document.place_of_candidates hsearched (by decide)
    (Document.locate_eq_ok_iff.1 hvehicles)
  -- the document of supported parameters is there, or it goes beside that of supported vehicles
  rcases Document.locateParameters_eq_ok_iff.1 hparameters with hfound | ⟨hnone, rfl⟩
  · obtain ⟨others, other, rfl, hother, -⟩ :=
      Document.place_of_candidates hsecond (by decide) hfound
    exact ⟨⟨location, dir, name, others, other⟩, hgrounded, hreach, hsearched.resolve,
      hsearched.directory, rfl, rfl, rfl, hplace, hother⟩
  · have hfallback := hplace.fallback hsecond (by decide) hnone hconfig.fallback
      hconfig.fallbackEnding
    rw [hplace.withFileName hconfig.fallback]
    exact ⟨⟨location, dir, name, dir, config.docs.parametersFallback⟩, hgrounded, hreach,
      hsearched.resolve, hsearched.directory, rfl, rfl, rfl, hplace, hfallback⟩

namespace Serve

variable (h : sites.Serve config root tree outs) (hconfig : config.Conventional root)

include h in
/-- A document has a place below the directory of documents. -/
lemma spot_document {ending : String} {dir : Location} {name : String}
    (hplace : Document.Place tree sites.docs ending dir name) :
    tree.Spot (config.docs.root.join (.ofNames (dir ++ [name]))) (sites.docs ++ dir) name :=
  FileTree.spot_join h.grounded (fun n hn => hplace.isName n (List.mem_append_left _ hn))
    (hplace.isName name (by simp)) (FileTree.reach_of_resolve h.resolve) hplace.directory

include h in
/-- The root directory is there. -/
lemma rootAt : tree.RootAt root sites.root where
  grounded := h.grounded
  reach := h.reach
  directory := h.grounded.directory_above (List.cons_ne_nil "docs" ["content"]) h.directory

include h hconfig in
/-- The paths of the outputs lead to their places. -/
lemma leads : ∀ file ∈ sites.outputs outs, file.Leads tree := by
  simp only [Sites.outputs, List.forall_mem_cons, List.not_mem_nil, false_implies, implies_true,
    and_true]
  refine ⟨?_, ?_, ?_⟩
  · have hname : Path.IsName "vehicle_profiles.json" := by decide
    have hspot := FileTree.spot_of_reach hname h.reach h.rootAt.directory
    rw [← hconfig.artifactPath, ← h.artifactPath] at hspot
    exact hspot
  · have hspot := h.spot_document h.vehicles
    rw [← h.vehiclesPath] at hspot
    exact hspot
  · have hspot := h.spot_document h.parameters
    rw [← h.parametersPath] at hspot
    exact hspot

include h hconfig in
/-- The path of the schema leads to its place if the schema can be read. -/
lemma leads_schema {text written : String} (hread : tree.read config.schemaPath = .ok text) :
    (sites.schema ⟨config.schemaPath, written⟩).Leads tree := by
  obtain ⟨base, hrootAt, hspot, -⟩ := FileTree.exists_spot_schema hconfig h.grounded hread
  have hreach := hrootAt.reach
  rw [h.reach] at hreach
  cases hreach
  exact hspot

include h in
/-- Files in other places below the root directory are read as before. -/
lemma read_eq_ok_iff {touched : List Location} (hchanged : FileTree.Rewritten tree after touched)
    {names : List String} (hne : names ≠ []) (hnames : ∀ name ∈ names, Path.IsName name)
    (hspared : sites.root ++ names ∉ touched) {text : String} :
    after.read (root.join (.ofNames names)) = .ok text ↔
      tree.read (root.join (.ofNames names)) = .ok text := by
  unfold FileTree.read
  rw [Steps.mapError_eq_ok_iff, Steps.mapError_eq_ok_iff]
  refine hchanged.readText_eq_ok_iff fun location hlocation => ?_
  obtain ⟨base, hreach, rfl, -⟩ := FileTree.resolve_join_ofNames hne hnames hlocation
  rw [h.reach] at hreach
  cases hreach
  exact hspared

include h hconfig in
/-- Once the outputs are written, they are rendered to the same places. -/
lemma render_rewritten (hrender : Build.render config tree library artifact = .ok outs)
    {schema : RenderedFile}
    (hchanged : FileTree.Rewritten tree after (FileTree.touchedBy (sites.files outs schema)))
    (hsettled : ∀ file ∈ sites.outputs outs, file.Settled after) :
    Build.render config after library artifact = .ok outs := by
  obtain ⟨-, hvehiclesFile, hparametersFile⟩ : _ ∧ _ ∧ _ := by
    simpa only [Sites.outputs, List.forall_mem_cons, List.not_mem_nil, false_implies,
      implies_true, and_true] using hsettled
  -- no output is named like a document other than itself
  have hvehicles := h.vehicles.rewritten hchanged fun others htouched hothers =>
    (eq_of_named rfl htouched hothers).resolve_right
      (hothers.ne h.parameters.named (by decide) (by decide))
  have hparameters := h.parameters.rewritten hchanged fun others htouched hothers =>
    (eq_of_named rfl htouched hothers).resolve_left
      (hothers.ne h.vehicles.named (by decide) (by decide))
  have hfirst := hvehicles.candidates_eq ((h.searched hconfig.vehiclesPattern).rewritten hchanged)
    (by decide) (by rw [← List.append_assoc]; exact hvehiclesFile.2)
  have hsecond := hparameters.candidates_eq
    ((h.searched hconfig.parametersPattern).rewritten hchanged)
    (by decide) (by rw [← List.append_assoc]; exact hparametersFile.2)
  rw [← h.vehiclesPath] at hfirst
  rw [← h.parametersPath] at hsecond
  obtain ⟨vehicles, parameters, -, -, houts⟩ := (Build.render_eq_ok_iff hconfig).1 hrender
  refine (Build.render_eq_ok_iff hconfig).2 ⟨outs.vehicles.path, outs.parameters.path,
    Document.locate_eq_ok_iff.2 hfirst, Document.locateParameters_eq_ok_iff.2 (.inl hsecond), ?_⟩
  rw [houts]

end Serve

end Sites

end LayeredProfiles
