import ViewTemplates.Text.CodePoints
import ViewTemplates.Text.Blank
import ViewTemplates.Text.Letter
import ViewTemplates.Text.Case
import ViewTemplates.Text.Search
import ViewTemplates.Json.Basic
import ViewTemplates.Json.Lexeme
import ViewTemplates.Json.Reader
import ViewTemplates.Json.Fields
import ViewTemplates.Json.Printer
import ViewTemplates.Forest
import ViewTemplates.Node
import ViewTemplates.Event
import ViewTemplates.Markup.Token
import ViewTemplates.Markup.Place
import ViewTemplates.Markup.Tokens
import ViewTemplates.Markup.Nesting
import ViewTemplates.Markup.Printer
import ViewTemplates.Document.Basic
import ViewTemplates.Document.Order
import ViewTemplates.Document.Edit
import ViewTemplates.Document.Subtree
import ViewTemplates.Document.Building
import ViewTemplates.Document.Copying
import ViewTemplates.Selector.Basic
import ViewTemplates.Selector.Item
import ViewTemplates.Selector.Parser
import ViewTemplates.Selector.Printer
import ViewTemplates.Selector.Matching
import ViewTemplates.Selector.Index
import ViewTemplates.Config
import ViewTemplates.Error
import ViewTemplates.Directive.Ref
import ViewTemplates.Factory.Binder
import ViewTemplates.Factory.Basic
import ViewTemplates.Factory.Describe
import ViewTemplates.Directive.Basic
import ViewTemplates.Directive.Registry
import ViewTemplates.Compiler.Mark
import ViewTemplates.Compiler.Claim
import ViewTemplates.Compiler.Marking
import ViewTemplates.Compiler.Basic
import ViewTemplates.Compiler.Extraction
import ViewTemplates.View
import ViewTemplates.Outlet
import ViewTemplates.Path
import ViewTemplates.DirectivesFile
import ViewTemplates.Command.Arguments
import ViewTemplates.Command.Run
import ViewTemplates.Main
import ViewTemplates.Proofs.Document.Reading
import ViewTemplates.Proofs.Document.WellFormed
import ViewTemplates.Proofs.Document.Moves
import ViewTemplates.Proofs.Outlet.Sequence
import ViewTemplates.Proofs.Runs
import ViewTemplates.Proofs.Outlet.Placement
import ViewTemplates.Proofs.Outlet.Calls
import ViewTemplates.Proofs.Forest
import ViewTemplates.Proofs.Compiler.Specification
import ViewTemplates.Proofs.Compiler.Marking
import ViewTemplates.Proofs.Compiler.Binders
import ViewTemplates.Proofs.Compiler.Factories
import ViewTemplates.Proofs.Markup.Nesting
import ViewTemplates.Proofs.Directive.Order
import ViewTemplates.Proofs.Compiler.Components
import ViewTemplates.Proofs.Document.Subtree
import ViewTemplates.Proofs.Compiler.Edits
import ViewTemplates.Proofs.Compiler.InPlace
import ViewTemplates.Proofs.Compiler.Layout
import ViewTemplates.Proofs.Compiler.Expansion
import ViewTemplates.Proofs.Document.Graft
import ViewTemplates.Proofs.Factory.Relocation
import ViewTemplates.Proofs.Selector.Lowering
import ViewTemplates.Proofs.Selector.Matching
import ViewTemplates.Proofs.Selector.Index
import ViewTemplates.Proofs.Directive.Matching
import ViewTemplates.Proofs.Compiler.Faults
import ViewTemplates.Proofs.Compiler.Outcome
import ViewTemplates.Proofs.Compiler.Levels
import ViewTemplates.Proofs.Compiler.Compilability
import ViewTemplates.Proofs.Compiler.Uniqueness
import ViewTemplates.Proofs.Compiler.History
import ViewTemplates.Proofs.Compiler.Views
import ViewTemplates.Proofs.Document.Operations
import ViewTemplates.Proofs.Document.Termination
import ViewTemplates.Proofs.Compiler.Documents
import ViewTemplates.Proofs.Factory.Leaves
import ViewTemplates.Proofs.Outlet.Documents
import ViewTemplates.Proofs.Artifacts
import ViewTemplates.Proofs.Outlet.Courses
import ViewTemplates.Proofs.Outlet.Refinement
import ViewTemplates.Proofs.Outlet.Failures
import ViewTemplates.Proofs.Outlet.Shifts
import ViewTemplates.Proofs.Outlet.Standing
import ViewTemplates.Proofs.Outlet.Boards
import ViewTemplates.Proofs.Outlet.BoardRuns
import ViewTemplates.Proofs.Compiler.Frame
import ViewTemplates.Proofs.Text.Search
import ViewTemplates.Proofs.Markup.Lexical
import ViewTemplates.Proofs.Markup.Rereading
import ViewTemplates.Proofs.Markup.Canonical
import ViewTemplates.Proofs.Markup.Normal
import ViewTemplates.Proofs.Document.RoundTrip
import ViewTemplates.Proofs.Compiler.Extractions
import ViewTemplates.Proofs.Compiler.Interruption
import ViewTemplates.Proofs.Compiler.Numbering
import ViewTemplates.Proofs.Text.CodeSet
import ViewTemplates.Proofs.Selector.Tiling
import ViewTemplates.Proofs.Selector.Parts
import ViewTemplates.Proofs.Selector.Acceptance
import ViewTemplates.Proofs.Selector.Meaning
import ViewTemplates.Proofs.Factory.Printing
import ViewTemplates.Proofs.Text.Words
import ViewTemplates.Proofs.Selector.Liveness
import ViewTemplates.Proofs.Directive.Liveness
import ViewTemplates.Proofs.Selector.Scanning
import ViewTemplates.Proofs.Markup.Cutting
import ViewTemplates.Proofs.Markup.Tokenizing
import ViewTemplates.Proofs.Document.Building
import ViewTemplates.Proofs.Document.OpenElements
import ViewTemplates.Proofs.Text.Case
import ViewTemplates.Proofs.Selector.Writing
import ViewTemplates.Proofs.Selector.Quoting
import ViewTemplates.Proofs.Selector.Rereading
import ViewTemplates.Proofs.Document.Effects
import ViewTemplates.Proofs.Markup.Lexemes
import ViewTemplates.Proofs.Markup.StrayEndTags
import ViewTemplates.Proofs.Markup.ImpliedEndTags
import ViewTemplates.Proofs.Document.EndTags
import ViewTemplates.Proofs.Document.Copies
import ViewTemplates.Proofs.Compiler.Sharing
import ViewTemplates.Proofs.Compiler.Attempts
import ViewTemplates.Proofs.Compiler.Sessions
import ViewTemplates.Proofs.Markup.Places
import ViewTemplates.Proofs.Directive.Files
import ViewTemplates.Proofs.Interpolation
import ViewTemplates.Proofs.Document.Order
