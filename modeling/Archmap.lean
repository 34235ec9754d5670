import Archmap.Creator
import Archmap.Data.Classes
import Archmap.Json.Document
import Archmap.Naming.Template
import Archmap.Class.Selector
import Archmap.Settings.Loading
import Archmap.Settings.LogLevel
import Archmap.Proofs.Digraph.Flood
import Archmap.Proofs.Digraph.Components
import Archmap.Proofs.Digraph.ElementaryCycle
import Archmap.Proofs.Digraph.WaysBack
import Archmap.Proofs.Digraph.Blocking
import Archmap.Proofs.Digraph.CycleSearch
import Archmap.Proofs.Ascending
import Archmap.Proofs.Digraph.Growth
import Archmap.Proofs.Digraph.Joints
import Archmap.Proofs.Digraph.Revisits
import Archmap.Proofs.Digraph.Contents
import Archmap.Proofs.Digraph.GraphCycles
import Archmap.Proofs.Digraph.Enumeration
import Archmap.Proofs.Namespace.Containment
import Archmap.Proofs.Namespace.Reading
import Archmap.Proofs.Namespace.Captures
import Archmap.Proofs.Namespace.Ways
import Archmap.Proofs.Namespace.Sequence
import Archmap.Proofs.Namespace.Bracketing
import Archmap.Proofs.Namespace.Groups
import Archmap.Proofs.Namespace.Expansion
import Archmap.Proofs.Namespace.Acceptance
import Archmap.Proofs.Namespace.Anchoring
import Archmap.Proofs.Namespace.Segments
import Archmap.Proofs.Namespace.Regex
import Archmap.Proofs.Namespace.RegexText
import Archmap.Proofs.Namespace.Plain
import Archmap.Proofs.Namespace.Taking
import Archmap.Proofs.Namespace.Splitting
import Archmap.Proofs.Namespace.Cuts
import Archmap.Proofs.Association.RootNamespaces
import Archmap.Proofs.Module.Partition
import Archmap.Proofs.Module.Dependencies
import Archmap.Proofs.Module.Conservation
import Archmap.Proofs.Module.Cycles
import Archmap.Proofs.Module.Membership
import Archmap.Proofs.Module.Indices
import Archmap.Proofs.Module.Lookup
import Archmap.Proofs.Module.Refusal
import Archmap.Proofs.Module.RootModules
import Archmap.Proofs.Module.PatternModules
import Archmap.Proofs.Snapshot.Building
import Archmap.Proofs.Association.Registration
import Archmap.Proofs.Snapshot.Indices
import Archmap.Proofs.Snapshot.InputOrder
import Archmap.Proofs.Module.Ignored
import Archmap.Proofs.Module.Reuse
import Archmap.Proofs.Module.Names
import Archmap.Proofs.Module.Declarations
import Archmap.Proofs.Naming.Placeholders
import Archmap.Proofs.Naming.Scanning
import Archmap.Proofs.Module.PatternNames
import Archmap.Proofs.Digraph.CycleOrder
import Archmap.Proofs.Snapshot.Answers
import Archmap.Proofs.Module.ForeignEnds
import Archmap.Proofs.Settings.Levels
import Archmap.Proofs.Data.Records
import Archmap.Proofs.Settings.Sections
import Archmap.Proofs.Data.Lossless
import Archmap.Proofs.Data.Overlay
import Archmap.Proofs.Toml.Keys
import Archmap.Proofs.Settings.Variables
import Archmap.Proofs.Settings.Layering
import Archmap.Proofs.Namespace.Ancestors
import Archmap.Proofs.Digraph.Cascade
import Archmap.Proofs.Digraph.Runs
import Archmap.Proofs.Digraph.Calls
