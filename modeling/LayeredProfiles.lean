import LayeredProfiles.Build.Compile
import LayeredProfiles.Build.FanOut
import LayeredProfiles.Build.Outputs
import LayeredProfiles.Build.Session
import LayeredProfiles.CommandLine.Arguments
import LayeredProfiles.CommandLine.Places
import LayeredProfiles.CommandLine.Report
import LayeredProfiles.CommandLine.Run
import LayeredProfiles.Config.Basic
import LayeredProfiles.Config.Reading
import LayeredProfiles.Document.Rows
import LayeredProfiles.Document.Target
import LayeredProfiles.Failure
import LayeredProfiles.FileTree.Basic
import LayeredProfiles.FileTree.Operation
import LayeredProfiles.FileTree.Reading
import LayeredProfiles.Fragment.Basic
import LayeredProfiles.Fragment.Defect
import LayeredProfiles.Fragment.Folder
import LayeredProfiles.Fragment.Reading
import LayeredProfiles.Fragment.Source
import LayeredProfiles.Fragment.Writing
import LayeredProfiles.Json.Basic
import LayeredProfiles.Json.Reader
import LayeredProfiles.Json.Writer
import LayeredProfiles.Layers.Chain
import LayeredProfiles.Layers.Merge
import LayeredProfiles.Layers.Origins
import LayeredProfiles.Layers.Resolution
import LayeredProfiles.Library.Basic
import LayeredProfiles.Library.Defect
import LayeredProfiles.Main
import LayeredProfiles.Note.File
import LayeredProfiles.Note.Line
import LayeredProfiles.Note.Selection
import LayeredProfiles.Number.Binary64
import LayeredProfiles.Number.Power
import LayeredProfiles.Number.Shortest
import LayeredProfiles.OrderedMap
import LayeredProfiles.Path.Basic
import LayeredProfiles.Path.Normalized
import LayeredProfiles.Pattern.Basic
import LayeredProfiles.Pattern.Reader
import LayeredProfiles.Profile.Artifact
import LayeredProfiles.Profile.Basic
import LayeredProfiles.Profile.Enrich
import LayeredProfiles.Schema.Basic
import LayeredProfiles.Schema.Enumeration
import LayeredProfiles.Schema.Sync
import LayeredProfiles.Schema.Violation
import LayeredProfiles.Text.Blank
import LayeredProfiles.Text.CaseTable
import LayeredProfiles.Text.CharSet
import LayeredProfiles.Text.Lowercase
import LayeredProfiles.Text.PrintTable
import LayeredProfiles.Text.Quoted
import LayeredProfiles.Text.Split
import LayeredProfiles.Yaml.Basic
import LayeredProfiles.Yaml.Reader
import LayeredProfiles.Yaml.Scalar
import LayeredProfiles.Proofs.Layers.Lookup
import LayeredProfiles.Proofs.Layers.Precedence
import LayeredProfiles.Proofs.Chain.Walk
import LayeredProfiles.Proofs.Chain.Lookups
import LayeredProfiles.Proofs.Chain.Outcome
import LayeredProfiles.Proofs.Build.FanOut
import LayeredProfiles.Proofs.FileTree.WellNamed
import LayeredProfiles.Proofs.Build.Omission
import LayeredProfiles.Proofs.Build.Coverage
import LayeredProfiles.Proofs.Build.Parameters
import LayeredProfiles.Proofs.Layers.Origins
import LayeredProfiles.Proofs.Build.Schedule
import LayeredProfiles.Proofs.Build.Emission
import LayeredProfiles.Proofs.Build.Layout
import LayeredProfiles.Proofs.Build.Rendering
import LayeredProfiles.Proofs.Json.Legible
import LayeredProfiles.Proofs.Json.Members
import LayeredProfiles.Proofs.Json.Numerals
import LayeredProfiles.Proofs.Json.Rereading
import LayeredProfiles.Proofs.Schema.Enumeration
import LayeredProfiles.Proofs.Build.Drift
import LayeredProfiles.Proofs.Build.Fixpoint
import LayeredProfiles.Proofs.Fragment.Reading
import LayeredProfiles.Proofs.Layers.Extras
import LayeredProfiles.Proofs.Schema.Keywords
import LayeredProfiles.Proofs.Schema.Vocabulary
import LayeredProfiles.Proofs.Build.Locality
import LayeredProfiles.Proofs.Build.Written
import LayeredProfiles.Proofs.FileTree.Effects
import LayeredProfiles.Proofs.FileTree.Stages
import LayeredProfiles.Proofs.Build.Aborted
import LayeredProfiles.Proofs.Build.Validation
import LayeredProfiles.Proofs.Build.Commutation
import LayeredProfiles.Proofs.Chain.Memory
import LayeredProfiles.Proofs.Layers.Arrangement
import LayeredProfiles.Proofs.Layers.Composition
import LayeredProfiles.Proofs.Layers.Alias
import LayeredProfiles.Proofs.Layers.Repetition
import LayeredProfiles.Proofs.Schema.InPlace
import LayeredProfiles.Proofs.Json.Roundtrip
import LayeredProfiles.Proofs.Schema.Synced
import LayeredProfiles.Proofs.Path.Normalized
import LayeredProfiles.Proofs.Fragment.Confinement
import LayeredProfiles.Proofs.Fragment.Forms
import LayeredProfiles.Proofs.Fragment.Listing
import LayeredProfiles.Proofs.Fragment.Roundtrip
import LayeredProfiles.Proofs.Fragment.Shape
import LayeredProfiles.Proofs.Text.Words
import LayeredProfiles.Proofs.Note.Spelling
import LayeredProfiles.Proofs.Note.Choice
import LayeredProfiles.Proofs.Note.Lines
import LayeredProfiles.Proofs.Note.Parentheses
import LayeredProfiles.Proofs.Build.Notes
import LayeredProfiles.Proofs.Document.Search
import LayeredProfiles.Proofs.Document.Inline
import LayeredProfiles.Proofs.Document.Rows
import LayeredProfiles.Proofs.Library.Reading
import LayeredProfiles.Proofs.Build.Collisions
import LayeredProfiles.Build.Course
import LayeredProfiles.Proofs.Build.Course
import LayeredProfiles.Proofs.Build.Interleaving
