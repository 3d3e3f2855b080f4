import ClassAtlas.Command.Arguments
import ClassAtlas.Command.Invocation
import ClassAtlas.Command.Run
import ClassAtlas.Configuration
import ClassAtlas.Count
import ClassAtlas.Extraction.Describe
import ClassAtlas.Extraction.Descriptor
import ClassAtlas.Extraction.Document
import ClassAtlas.Extraction.Event
import ClassAtlas.Extraction.File
import ClassAtlas.Failure
import ClassAtlas.Guard
import ClassAtlas.Input.Directory
import ClassAtlas.Input.Source
import ClassAtlas.Json.Read
import ClassAtlas.Json.Value
import ClassAtlas.Json.Write
import ClassAtlas.Layout.Normal
import ClassAtlas.Layout.Placement
import ClassAtlas.Layout.Render
import ClassAtlas.Layout.Spacing
import ClassAtlas.Layout.Token
import ClassAtlas.Lookup
import ClassAtlas.Main
import ClassAtlas.Model.Binding
import ClassAtlas.Model.Expression
import ClassAtlas.Model.Hierarchy
import ClassAtlas.Model.Locals
import ClassAtlas.Model.Names
import ClassAtlas.Model.References
import ClassAtlas.Settings
import ClassAtlas.Symbols.Outline
import ClassAtlas.Symbols.Table
import ClassAtlas.Symbols.Using
import ClassAtlas.Syntax.Declaration
import ClassAtlas.Syntax.Document
import ClassAtlas.Syntax.Listing
import ClassAtlas.Syntax.Node
import ClassAtlas.Syntax.Preorder
import ClassAtlas.Syntax.Tree
import ClassAtlas.Text.Blank
import ClassAtlas.Text.Cut
import ClassAtlas.Text.Hex
import ClassAtlas.Text.Letter
import ClassAtlas.Text.Slice
import ClassAtlas.Text.System
import ClassAtlas.Text.Utf8
import ClassAtlas.Toml.Read
import ClassAtlas.Toml.Scalar
import ClassAtlas.Toml.Settings
import ClassAtlas.Toml.Table
import ClassAtlas.Toml.Text
import ClassAtlas.Types.CoreLibrary
import ClassAtlas.Types.Display
import ClassAtlas.Types.TypeRef
import ClassAtlas.Proofs.Layout.Leaves
import ClassAtlas.Proofs.Layout.Relocation
import ClassAtlas.Proofs.Syntax.Listing
import ClassAtlas.Proofs.Layout.Settled
import ClassAtlas.Proofs.Layout.Spaces
import ClassAtlas.Proofs.References.Arguments
import ClassAtlas.Proofs.References.Inclusion
import ClassAtlas.Proofs.References.PartialTypes
import ClassAtlas.Proofs.References.Reachable
import ClassAtlas.Proofs.Symbols.Coherence
import ClassAtlas.Proofs.Symbols.Declarations
import ClassAtlas.Proofs.Symbols.Enclosing
import ClassAtlas.Proofs.Symbols.Entered
import ClassAtlas.Proofs.Symbols.Identity
import ClassAtlas.Proofs.Symbols.Merging
import ClassAtlas.Proofs.Symbols.Recorded
import ClassAtlas.Proofs.Syntax.Address
import ClassAtlas.Proofs.Syntax.Descent
import ClassAtlas.Proofs.Syntax.Order
import ClassAtlas.Proofs.Types.Binding
import ClassAtlas.Proofs.Types.Inside
import ClassAtlas.Proofs.Types.Produced
import ClassAtlas.Proofs.Extraction.Comparison
import ClassAtlas.Proofs.Extraction.Completeness
import ClassAtlas.Proofs.Extraction.Dependencies
import ClassAtlas.Proofs.Extraction.Descriptors
import ClassAtlas.Proofs.Layout.Independence
import ClassAtlas.Proofs.Layout.Brackets
import ClassAtlas.Proofs.Layout.Breaks
import ClassAtlas.Proofs.Layout.Directives
import ClassAtlas.Proofs.Layout.Neighbours
import ClassAtlas.Proofs.Layout.Indentation
import ClassAtlas.Proofs.Layout.Members
import ClassAtlas.Proofs.Layout.Nesting
import ClassAtlas.Proofs.Layout.Runs
import ClassAtlas.Proofs.Layout.Statements
import ClassAtlas.Proofs.Json.RoundTrip
import ClassAtlas.Proofs.Extraction.Decoding
import ClassAtlas.Proofs.Toml.Keys
import ClassAtlas.Proofs.Command.Configuration
import ClassAtlas.Proofs.Command.Arguments
import ClassAtlas.Proofs.Command.Outcomes
import ClassAtlas.Proofs.Types.Inheritance
import ClassAtlas.Proofs.Types.Shadowing
import ClassAtlas.Proofs.Names.Confinement
import ClassAtlas.Proofs.Names.Precedence
import ClassAtlas.Proofs.Names.Rooted
import ClassAtlas.Proofs.Names.Spaces
import ClassAtlas.Proofs.Types.MemberLookup
import ClassAtlas.Proofs.Types.Substitution
import ClassAtlas.Proofs.Syntax.Ancestry
import ClassAtlas.Proofs.Extraction.Guards
import ClassAtlas.Proofs.Layout.Headers
import ClassAtlas.Proofs.Layout.Terminators
import ClassAtlas.Proofs.Layout.Trailing
import ClassAtlas.Proofs.Symbols.Usings
import ClassAtlas.Proofs.Syntax.Traversal
import ClassAtlas.Proofs.Layout.LeadingComments
import ClassAtlas.Proofs.Types.Dimensions
