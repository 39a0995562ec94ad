import ManifestSchema.Main
import ManifestSchema.Proofs.Compile.Fragment
import ManifestSchema.Proofs.DepthFirst
import ManifestSchema.Proofs.Compile.Growth
import ManifestSchema.Proofs.Compile.Locality
import ManifestSchema.Proofs.Compile.Meaning
import ManifestSchema.Proofs.Compile.Reachability
import ManifestSchema.Proofs.Compile.References
import ManifestSchema.Proofs.Compile.Progress
import ManifestSchema.Proofs.Diagnostics
import ManifestSchema.Proofs.Diagnostics.Tree
import ManifestSchema.Proofs.Diagnostics.Rendering
import ManifestSchema.Proofs.Document
import ManifestSchema.Proofs.Compile.Reports
import ManifestSchema.Proofs.WriteOnce
import ManifestSchema.Proofs.Envelope
import ManifestSchema.Proofs.Roots
import ManifestSchema.Proofs.Outcome
import ManifestSchema.Proofs.Compile.Agreement
import ManifestSchema.Proofs.Declarations
import ManifestSchema.Proofs.DeclaredNames
import ManifestSchema.Proofs.Merging
import ManifestSchema.Proofs.TypeReferences
import ManifestSchema.Proofs.Decoding.Settled
import ManifestSchema.Proofs.Decoding.Agreement
import ManifestSchema.Proofs.Enumeration
import ManifestSchema.Proofs.Envelope.Frame
import ManifestSchema.Proofs.RootEntries
import ManifestSchema.Proofs.RootsInDocument
import ManifestSchema.Proofs.Envelope.Definitions
import ManifestSchema.Proofs.Compile.Alternative
import ManifestSchema.Proofs.Ancestors
import ManifestSchema.Proofs.Compile.Calls
import ManifestSchema.Proofs.Compile.Termination
import ManifestSchema.Proofs.Compile.Pending
import ManifestSchema.Proofs.Inheritance.Walk
import ManifestSchema.Proofs.Inheritance.Cycles
import ManifestSchema.Proofs.Inheritance.Properties
import ManifestSchema.Proofs.Inheritance.Overriding
import ManifestSchema.Proofs.Extensions
import ManifestSchema.Proofs.Extensions.BuiltIn
import ManifestSchema.Proofs.Legality.Basic
import ManifestSchema.Proofs.Legality.Document
import ManifestSchema.Proofs.JsonText.Grammar
import ManifestSchema.Proofs.JsonText.Sound
import ManifestSchema.Proofs.JsonText.Complete
import ManifestSchema.Proofs.JsonText.Whole
import ManifestSchema.Proofs.Compile.AlternativeOwner
import ManifestSchema.Proofs.Inheritance.Lineage
import ManifestSchema.Proofs.Inheritance.Trees
import ManifestSchema.Proofs.SkippedClasses
import ManifestSchema.Proofs.Compile.Descriptions
import ManifestSchema.Proofs.Producers
import ManifestSchema.Proofs.Diagnostics.Paths
import ManifestSchema.Proofs.Pointer.Segments
import ManifestSchema.Proofs.TomlText.Strings
import ManifestSchema.Proofs.TomlText.Values
import ManifestSchema.Proofs.TomlText.Documents
import ManifestSchema.Proofs.Settings.Layers
import ManifestSchema.Proofs.Settings.Arranged
import ManifestSchema.Proofs.Settings.Printed
import ManifestSchema.Proofs.Settings.Rewritten
import ManifestSchema.Proofs.Settings.Fields
import ManifestSchema.Proofs.Settings.Sections
import ManifestSchema.Proofs.Settings.Directory
import ManifestSchema.Proofs.Settings.Runs
import ManifestSchema.Proofs.Settings.Reload
