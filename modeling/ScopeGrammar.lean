import ScopeGrammar.Context
import ScopeGrammar.Error
import ScopeGrammar.Grammar.Compile
import ScopeGrammar.Grammar.Source
import ScopeGrammar.Notice
import ScopeGrammar.OpenSpans
import ScopeGrammar.Pattern.Engine
import ScopeGrammar.Pattern.Regex
import ScopeGrammar.Proofs.Context.Accepted
import ScopeGrammar.Proofs.Context.Resolve
import ScopeGrammar.Proofs.Context.Store
import ScopeGrammar.Proofs.Context.Winner
import ScopeGrammar.Proofs.Grammar.Acceptance
import ScopeGrammar.Proofs.Grammar.Build
import ScopeGrammar.Proofs.Grammar.CaptureTables
import ScopeGrammar.Proofs.Grammar.Disabled
import ScopeGrammar.Proofs.Grammar.Entries
import ScopeGrammar.Proofs.Grammar.Growing
import ScopeGrammar.Proofs.Grammar.Links
import ScopeGrammar.Proofs.Grammar.Matching
import ScopeGrammar.Proofs.Grammar.Openings
import ScopeGrammar.Proofs.Grammar.References
import ScopeGrammar.Proofs.Grammar.Reordered
import ScopeGrammar.Proofs.Grammar.Scoping
import ScopeGrammar.Proofs.Grammar.Sources
import ScopeGrammar.Proofs.Grammar.Steps
import ScopeGrammar.Proofs.Grammar.Traversal
import ScopeGrammar.Proofs.Grammar.Twin
import ScopeGrammar.Proofs.Grammar.Visits
import ScopeGrammar.Proofs.Grammar.Written
import ScopeGrammar.Proofs.Json.Documents
import ScopeGrammar.Proofs.Json.Members
import ScopeGrammar.Proofs.Json.Numerals
import ScopeGrammar.Proofs.Json.Records
import ScopeGrammar.Proofs.Json.Rendered
import ScopeGrammar.Proofs.Json.Strings
import ScopeGrammar.Proofs.Pattern.Anchored
import ScopeGrammar.Proofs.Pattern.Encoded
import ScopeGrammar.Proofs.Pattern.Filling
import ScopeGrammar.Proofs.Pattern.Forward
import ScopeGrammar.Proofs.Pattern.Inside
import ScopeGrammar.Proofs.Pattern.Leftmost
import ScopeGrammar.Proofs.Pattern.Searches
import ScopeGrammar.Proofs.Registry.Additions
import ScopeGrammar.Proofs.Registry.Coherence
import ScopeGrammar.Proofs.Registry.Composition
import ScopeGrammar.Proofs.Registry.Expansion
import ScopeGrammar.Proofs.Registry.Gathered
import ScopeGrammar.Proofs.Registry.Growth
import ScopeGrammar.Proofs.Registry.Identifiers
import ScopeGrammar.Proofs.Registry.InStep
import ScopeGrammar.Proofs.Registry.Pairing
import ScopeGrammar.Proofs.Registry.Renumbered
import ScopeGrammar.Proofs.Registry.Situations
import ScopeGrammar.Proofs.Scope.Prefixes
import ScopeGrammar.Proofs.Session.Agreement
import ScopeGrammar.Proofs.Session.Anchors
import ScopeGrammar.Proofs.Session.Closing
import ScopeGrammar.Proofs.Session.Confinement
import ScopeGrammar.Proofs.Session.Consistency
import ScopeGrammar.Proofs.Session.Coverage
import ScopeGrammar.Proofs.Session.Holding
import ScopeGrammar.Proofs.Session.InStep
import ScopeGrammar.Proofs.Session.Independence
import ScopeGrammar.Proofs.Session.Isolation
import ScopeGrammar.Proofs.Session.LineEnd
import ScopeGrammar.Proofs.Session.Nesting
import ScopeGrammar.Proofs.Session.Paired
import ScopeGrammar.Proofs.Session.Progress
import ScopeGrammar.Proofs.Session.Resume
import ScopeGrammar.Proofs.Session.Run
import ScopeGrammar.Proofs.Session.Scan
import ScopeGrammar.Proofs.Session.Scopes
import ScopeGrammar.Proofs.Session.WholeText
import ScopeGrammar.Proofs.Span.Ends
import ScopeGrammar.Proofs.Span.Fitting
import ScopeGrammar.Proofs.Span.Rebuilt
import ScopeGrammar.Proofs.Span.Run
import ScopeGrammar.Proofs.Text.Offsets
import ScopeGrammar.Proofs.Text.Slices
import ScopeGrammar.Proofs.Text.Terminators
import ScopeGrammar.Proofs.Token.RoundTrip
import ScopeGrammar.Proofs.Token.Tiling
import ScopeGrammar.Proofs.World.Basic
import ScopeGrammar.Proofs.World.Catalog
import ScopeGrammar.Proofs.World.Depths
import ScopeGrammar.Proofs.World.History
import ScopeGrammar.Proofs.World.Kept
import ScopeGrammar.Proofs.World.Walk
import ScopeGrammar.Registry.Resolve
import ScopeGrammar.Scope
import ScopeGrammar.Session.Line
import ScopeGrammar.Token.Basic
