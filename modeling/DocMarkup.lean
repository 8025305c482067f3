import DocMarkup.CommandLine.Request
import DocMarkup.CommandLine.Run
import DocMarkup.CommandLine.Sources
import DocMarkup.Comment
import DocMarkup.Data.Construct
import DocMarkup.Data.Decimal
import DocMarkup.Data.Decode
import DocMarkup.Data.Entity
import DocMarkup.Data.Json
import DocMarkup.Data.Plain
import DocMarkup.Data.Repository
import DocMarkup.Data.Settings
import DocMarkup.Data.Value
import DocMarkup.Data.Yaml
import DocMarkup.Data.Yaml.Document
import DocMarkup.Data.Yaml.Layout
import DocMarkup.Data.Yaml.Scalar
import DocMarkup.Data.Yaml.Text
import DocMarkup.Data.Yaml.Tokens
import DocMarkup.Error
import DocMarkup.Files.FileSystem
import DocMarkup.Files.Path
import DocMarkup.Grammar
import DocMarkup.Grammar.Expansion
import DocMarkup.Grammar.NamedPattern
import DocMarkup.Grammar.Scan
import DocMarkup.GtkDoc
import DocMarkup.GtkDoc.Anchor
import DocMarkup.GtkDoc.Index
import DocMarkup.Hierarchy
import DocMarkup.Hierarchy.Markup
import DocMarkup.Language
import DocMarkup.Link
import DocMarkup.Link.PageId
import DocMarkup.Link.Style
import DocMarkup.Load
import DocMarkup.Main
import DocMarkup.Page.Chunk
import DocMarkup.Page.Element
import DocMarkup.PathTree
import DocMarkup.Pattern.AutomatonSize
import DocMarkup.Pattern.Basic
import DocMarkup.Pattern.ByteSequence
import DocMarkup.Pattern.CharSet
import DocMarkup.Pattern.CodeRanges
import DocMarkup.Pattern.Expression
import DocMarkup.Pattern.Lexeme
import DocMarkup.Pattern.Limits
import DocMarkup.Pattern.Matching
import DocMarkup.Pattern.Outline
import DocMarkup.Pattern.Reading
import DocMarkup.Pattern.UnicodeClasses
import DocMarkup.Pattern.Visited
import DocMarkup.Proofs.Comment.Contexts
import DocMarkup.Proofs.Comment.Gaps
import DocMarkup.Proofs.Comment.Grammar
import DocMarkup.Proofs.Comment.Lines
import DocMarkup.Proofs.Comment.Longest
import DocMarkup.Proofs.Comment.Neighbours
import DocMarkup.Proofs.Comment.Runs
import DocMarkup.Proofs.Comment.Tokens
import DocMarkup.Proofs.Comment.Written
import DocMarkup.Proofs.Data.Changes
import DocMarkup.Proofs.Data.Limits
import DocMarkup.Proofs.Data.Reading
import DocMarkup.Proofs.Data.RoundTrip
import DocMarkup.Proofs.Data.Values
import DocMarkup.Proofs.Grammar.Alternatives
import DocMarkup.Proofs.Grammar.Captures
import DocMarkup.Proofs.Grammar.Cycles
import DocMarkup.Proofs.Grammar.Inlining
import DocMarkup.Proofs.Grammar.Matches
import DocMarkup.Proofs.Grammar.Partition
import DocMarkup.Proofs.Grammar.Pieces
import DocMarkup.Proofs.Grammar.Reference
import DocMarkup.Proofs.Grammar.Substitution
import DocMarkup.Proofs.GtkDoc.Anchor
import DocMarkup.Proofs.GtkDoc.Index
import DocMarkup.Proofs.GtkDoc.Separation
import DocMarkup.Proofs.Hierarchy.Chain
import DocMarkup.Proofs.Hierarchy.Declared
import DocMarkup.Proofs.Hierarchy.Graph
import DocMarkup.Proofs.Hierarchy.Items
import DocMarkup.Proofs.Hierarchy.Links
import DocMarkup.Proofs.Hierarchy.Roots
import DocMarkup.Proofs.Hierarchy.Walks
import DocMarkup.Proofs.Link.Characters
import DocMarkup.Proofs.Link.PageIds
import DocMarkup.Proofs.Link.Renderings
import DocMarkup.Proofs.Link.Unmarked
import DocMarkup.Proofs.Page.Indentation
import DocMarkup.Proofs.Page.Removal
import DocMarkup.Proofs.Page.Tags
import DocMarkup.Proofs.Pattern.Alternatives
import DocMarkup.Proofs.Pattern.Backtracking
import DocMarkup.Proofs.Pattern.Completeness
import DocMarkup.Proofs.Pattern.Composition
import DocMarkup.Proofs.Pattern.Greedy
import DocMarkup.Proofs.Pattern.Lexing
import DocMarkup.Proofs.Pattern.Lockstep
import DocMarkup.Proofs.Pattern.Replacing
import DocMarkup.Proofs.Pattern.Soundness
import DocMarkup.Proofs.Pattern.Stability
import DocMarkup.Proofs.Pattern.Takes
import DocMarkup.Proofs.Pattern.Templates
import DocMarkup.Proofs.Pattern.Unread
import DocMarkup.Proofs.Render.Brackets
import DocMarkup.Proofs.Render.Code
import DocMarkup.Proofs.Render.Documents
import DocMarkup.Proofs.Render.Effect
import DocMarkup.Proofs.Render.Inclusions
import DocMarkup.Proofs.Render.Linked
import DocMarkup.Proofs.Render.Markup
import DocMarkup.Proofs.Render.Nesting
import DocMarkup.Proofs.Render.Plurals
import DocMarkup.Proofs.Render.Sections
import DocMarkup.Proofs.Render.Session
import DocMarkup.Proofs.Render.Trace
import DocMarkup.Proofs.Render.Unresolved
import DocMarkup.Proofs.Render.Words
import DocMarkup.Proofs.Repository.Arena
import DocMarkup.Proofs.Repository.Layout
import DocMarkup.Proofs.Repository.Lookup
import DocMarkup.Proofs.Repository.Readings
import DocMarkup.Proofs.Repository.Resolution
import DocMarkup.Proofs.Sections.Index
import DocMarkup.Proofs.Sections.Neighbours
import DocMarkup.Proofs.Text.Bytes
import DocMarkup.Proofs.Text.Escaping
import DocMarkup.Proofs.Text.Fragments
import DocMarkup.Proofs.Text.Lowering
import DocMarkup.Proofs.Text.Reading
import DocMarkup.Proofs.Text.References
import DocMarkup.Proofs.Text.Slices
import DocMarkup.Render.Construct
import DocMarkup.Render.Document
import DocMarkup.Render.Inclusion
import DocMarkup.Render.Navigation
import DocMarkup.Render.Output
import DocMarkup.Render.Renderer
import DocMarkup.Render.Session
import DocMarkup.Render.State
import DocMarkup.Repository
import DocMarkup.Repository.Entity
import DocMarkup.Repository.Namespace
import DocMarkup.Repository.Resolution
import DocMarkup.Sections
import DocMarkup.Settings
import DocMarkup.Text.Alphabet
import DocMarkup.Text.AlphabetTables
import DocMarkup.Text.Blank
import DocMarkup.Text.Case
import DocMarkup.Text.CaseTables
import DocMarkup.Text.Escape
import DocMarkup.Text.Folding
import DocMarkup.Text.FoldingTables
import DocMarkup.Text.Fragment
import DocMarkup.Text.Quoted
import DocMarkup.Text.Split
import DocMarkup.Text.Utf8
import DocMarkup.Text.VisibilityTables
import DocMarkup.Unvisited
