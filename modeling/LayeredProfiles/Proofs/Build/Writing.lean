import Mathlib.Data.List.Flatten
import LayeredProfiles.Proofs.Build.Rendering
import LayeredProfiles.Proofs.Build.Session
import LayeredProfiles.Proofs.Schema.Enumeration

set_option autoImplicit false

/-!
# What a build writes

Under the conventional layout a build that renders its outputs, writes them and brings the schema in
line touches the places of these four files and nothing else. The schema is read while the outputs
are there already, but these are in other places. In the end each file that was written is as it
should be.

## Main definitions

* `Sites.changed` — the files that a build writes.
* `Build.Wrote` — what a build wrote.

## Main results

* `Build.exists_wrote` — a build that writes all that it has to write.
* `Build.exists_wrote_of_clear` — a build that finds no directory in its way does.
* `Build.Wrote.rewritten`, `Build.Wrote.settled` — what is changed by it.
-/

namespace LayeredProfiles

/-- The files that a build writes: its outputs, and the schema if it changes. -/
def Sites.changed (sites : Sites) (outs : Outputs) (schema : RenderedFile) (updated : Bool) :
    List PlacedFile :=
  sites.outputs outs ++ if updated then [sites.schema schema] else []

/-- The text that a schema gets and where it goes. -/
def SchemaFile.rendered (file : SchemaFile) (document : Json) : RenderedFile :=
  ⟨file.path, textOf document⟩

namespace Build

variable {config : BuildConfig} {root : Path} {tree between after : FileTree}
  {library : ParameterLibrary} {artifact : Artifact} {outs : Outputs} {sites : Sites}
  {updated : Bool} {document : Json} {written : List Path}

/-- What a build wrote under the conventional layout. -/
structure Wrote (sites : Sites) (config : BuildConfig) (root : Path) (library : ParameterLibrary)
    (outs : Outputs) (updated : Bool) (document : Json) (tree after : FileTree) : Prop where
  /-- The outputs have their places. -/
  serve : sites.Serve config root tree outs
  /-- The document of the schema with the names of the parameters. -/
  withNames : config.schemaFile.withNames tree library = .ok (updated, document)
  /-- Paths lead to the places of all files. -/
  leads : ∀ file ∈ sites.files outs (config.schemaFile.rendered document), file.Leads tree
  /-- There are no directories in the way. -/
  clear : ∀ file ∈ sites.changed outs (config.schemaFile.rendered document) updated,
    file.Clear tree
  /-- The files are written. -/
  after_eq : after = tree.written (sites.changed outs (config.schemaFile.rendered document) updated)

/-- A build writes only files that it may write. -/
lemma changed_sublist (sites : Sites) (outs : Outputs) (schema : RenderedFile) (updated : Bool) :
    (sites.changed outs schema updated).Sublist (sites.files outs schema) := by
  cases updated
  · simp [Sites.changed, Sites.files]
  · exact List.Sublist.refl _

/-- What is written to bring a schema in line, in its place. -/
lemma map_toRenderedFile_schema (sites : Sites) (config : BuildConfig) (updated : Bool)
    (document : Json) :
    (if updated then [sites.schema (config.schemaFile.rendered document)] else []).map
      PlacedFile.toRenderedFile = config.schemaFile.writes updated document := by
  cases updated <;> rfl

/-- A build that writes its outputs and brings the schema in line writes all that it has to
write. -/
lemma exists_wrote (hconfig : config.Conventional root) (hgrounded : tree.Grounded)
    (hrender : render config tree library artifact = .ok outs)
    (hemit : (emit outs.files).runOn tree = (.ok written, between))
    (hsync : (config.schemaFile.sync library).runOn between = (.ok updated, after)) :
    ∃ sites document, Wrote sites config root library outs updated document tree after ∧
      written = outs.files.map RenderedFile.path := by
  obtain ⟨sites, hserve⟩ := Sites.exists_serve hconfig hgrounded hrender
  obtain ⟨hclear, hwritten, rfl⟩ := (runOn_emit_eq_ok_iff (hserve.leads hconfig)).1 hemit
  have houtputs := FileTree.rewritten_written (hserve.leads hconfig) hclear
  obtain ⟨document, paths, hnames, hwrites⟩ := SchemaFile.runOn_sync_eq_ok_iff.1 hsync
  -- the schema comes last, and the outputs that are written before it leave it alone
  have hnames' := (hserve.rootAt.withNames_rewritten hconfig houtputs Sites.not_below_schema
    library).symm.trans hnames
  obtain ⟨text, found, hread, -, -⟩ := SchemaFile.withNames_eq_ok_iff.1 hnames'
  have hschema : (sites.schema (config.schemaFile.rendered document)).Leads tree :=
    hserve.leads_schema hconfig hread
  have hleads :
      ∀ file ∈ if updated then [sites.schema (config.schemaFile.rendered document)] else [],
        file.Leads tree := by
    cases updated <;> simp [hschema]
  rw [← map_toRenderedFile_schema sites] at hwrites
  obtain ⟨hclears, -, rfl⟩ := (runOn_emit_eq_ok_iff fun file hfile =>
    (hleads file hfile).rewritten houtputs).1 hwrites
  refine ⟨sites, document, ⟨hserve, hnames', ?_, ?_, FileTree.written_append _ _⟩, hwritten⟩
  · intro file hfile
    rcases List.mem_append.1 hfile with hout | hlast
    · exact hserve.leads hconfig file hout
    · exact List.mem_singleton.1 hlast ▸ hschema
  · intro file hfile
    rcases List.mem_append.1 hfile with hout | hlast
    · exact hclear file hout
    · exact (PlacedFile.clear_rewritten_iff houtputs).1 (hclears file hlast)

/-- A build that finds no directory in the way of its files writes all that it has to write. -/
lemma exists_wrote_of_clear (hconfig : config.Conventional root) (hgrounded : tree.Grounded)
    (hrender : render config tree library artifact = .ok outs)
    (hnames : config.schemaFile.withNames tree library = .ok (updated, document))
    (hclear : ∀ sites : Sites, sites.Named →
      ∀ file ∈ sites.files outs (config.schemaFile.rendered document), file.Clear tree) :
    ∃ sites between after, Wrote sites config root library outs updated document tree after ∧
      (emit outs.files).runOn tree = (.ok (outs.files.map RenderedFile.path), between) ∧
      (config.schemaFile.sync library).runOn between = (.ok updated, after) := by
  obtain ⟨sites, hserve⟩ := Sites.exists_serve hconfig hgrounded hrender
  have hclears := hclear sites hserve.named
  obtain ⟨hfirst, hlast⟩ := List.forall_mem_append.1 hclears
  have hemit := (runOn_emit_eq_ok_iff (hserve.leads hconfig)).2 ⟨hfirst, rfl, rfl⟩
  have houtputs := FileTree.rewritten_written (hserve.leads hconfig) hfirst
  -- the schema is still to be written, and nothing has come in its way
  obtain ⟨text, found, hread, -, -⟩ := SchemaFile.withNames_eq_ok_iff.1 hnames
  have hnames' := (hserve.rootAt.withNames_rewritten hconfig houtputs Sites.not_below_schema
    library).trans hnames
  have hready : ∀ file ∈ if updated then [sites.schema (config.schemaFile.rendered document)] else [],
      file.Leads (tree.written (sites.outputs outs)) ∧
        file.Clear (tree.written (sites.outputs outs)) := by
    intro file hfile
    obtain rfl : file = sites.schema (config.schemaFile.rendered document) := by
      cases updated <;> simp_all
    exact ⟨(hserve.leads_schema hconfig hread).rewritten houtputs,
      (PlacedFile.clear_rewritten_iff houtputs).2 (hlast _ (List.mem_singleton_self _))⟩
  have hwrites := (runOn_emit_eq_ok_iff fun file hfile => (hready file hfile).1).2
    ⟨fun file hfile => (hready file hfile).2, rfl, rfl⟩
  rw [map_toRenderedFile_schema] at hwrites
  have hsync := SchemaFile.runOn_sync_eq_ok_iff.2 ⟨document, _, hnames', hwrites⟩
  obtain ⟨places, _, hwrote, -⟩ := exists_wrote hconfig hgrounded hrender hemit hsync
  obtain ⟨-, rfl⟩ := Prod.mk.inj (Except.ok.inj (hwrote.withNames.symm.trans hnames))
  exact ⟨places, _, _, hwrote, hemit, hsync⟩

namespace Wrote

variable (h : Wrote sites config root library outs updated document tree after)

include h

/-- Only the places of the files that are written are touched. -/
lemma rewritten_changed : FileTree.Rewritten tree after (FileTree.touchedBy
    (sites.changed outs (config.schemaFile.rendered document) updated)) := by
  have hsub := changed_sublist sites outs (config.schemaFile.rendered document) updated
  rw [h.after_eq]
  exact FileTree.rewritten_written (fun file hfile => h.leads file (hsub.subset hfile)) h.clear

/-- Only the places of the four files are touched. -/
lemma rewritten : FileTree.Rewritten tree after (FileTree.touchedBy
    (sites.files outs (config.schemaFile.rendered document))) :=
  h.rewritten_changed.mono ((changed_sublist sites outs _ updated).flatMap _).subset

/-- What was written is as it should be. -/
lemma settled : ∀ file ∈ sites.changed outs (config.schemaFile.rendered document) updated,
    file.Settled after := by
  rw [h.after_eq]
  have hsub := changed_sublist sites outs (config.schemaFile.rendered document) updated
  refine FileTree.settled_written ?_ ?_
  · exact (Sites.nodup_locations h.serve.named).sublist (hsub.map _)
  · exact fun file _ other hother => Sites.location_ne_scratch h.serve.named (hsub.subset hother)

end Wrote

end Build

end LayeredProfiles
