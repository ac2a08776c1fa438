import TemplateMarkup.ClassName.Basic
import TemplateMarkup.ClassName.Usage
import TemplateMarkup.CommandLine
import TemplateMarkup.Component
import TemplateMarkup.Config
import TemplateMarkup.Diagnostic
import TemplateMarkup.Document.Attribute
import TemplateMarkup.Document.Basic
import TemplateMarkup.Document.Element
import TemplateMarkup.Document.Json
import TemplateMarkup.Document.Outline
import TemplateMarkup.Edit.Attributes
import TemplateMarkup.Edit.Basic
import TemplateMarkup.Edit.File
import TemplateMarkup.Edit.Json
import TemplateMarkup.Edit.Merge
import TemplateMarkup.Edit.Rename
import TemplateMarkup.Edit.Splice
import TemplateMarkup.Error
import TemplateMarkup.FileTree.Action
import TemplateMarkup.FileTree.Basic
import TemplateMarkup.FileTree.Search
import TemplateMarkup.Glob.Basic
import TemplateMarkup.Glob.PathMatcher
import TemplateMarkup.Glob.Reader
import TemplateMarkup.Json.Basic
import TemplateMarkup.Json.Binary64
import TemplateMarkup.Json.Shape
import TemplateMarkup.Json.Source
import TemplateMarkup.Literal
import TemplateMarkup.Main
import TemplateMarkup.Markup.Grammar
import TemplateMarkup.Markup.Lexeme
import TemplateMarkup.Markup.Node
import TemplateMarkup.Markup.OpenTags
import TemplateMarkup.Markup.Reader
import TemplateMarkup.Markup.Stack
import TemplateMarkup.Markup.State
import TemplateMarkup.Markup.Tag
import TemplateMarkup.Markup.Token
import TemplateMarkup.Markup.Tree
import TemplateMarkup.Orphan
import TemplateMarkup.Outcome
import TemplateMarkup.Path
import TemplateMarkup.Pattern.Basic
import TemplateMarkup.Pattern.CharSet
import TemplateMarkup.Pattern.Property
import TemplateMarkup.Pattern.Reader
import TemplateMarkup.Query.Basic
import TemplateMarkup.Query.Reader
import TemplateMarkup.Region
import TemplateMarkup.Repetition
import TemplateMarkup.Report
import TemplateMarkup.Scan.Audit
import TemplateMarkup.Scan.Classes
import TemplateMarkup.Server.Basic
import TemplateMarkup.Server.Message
import TemplateMarkup.Server.Tool
import TemplateMarkup.Span
import TemplateMarkup.Split.CodeBehind
import TemplateMarkup.Split.File
import TemplateMarkup.Split.Namespace
import TemplateMarkup.Split.PathList
import TemplateMarkup.Split.Project
import TemplateMarkup.Stylesheet
import TemplateMarkup.Text.Basic
import TemplateMarkup.Text.Bytes
import TemplateMarkup.Text.Case
import TemplateMarkup.Text.Category
import TemplateMarkup.Text.Fold
import TemplateMarkup.Text.Letter
import TemplateMarkup.Text.Printable
import TemplateMarkup.Text.Script
import TemplateMarkup.Text.Search
import TemplateMarkup.Proofs.Arena
import TemplateMarkup.Proofs.Layout
import TemplateMarkup.Proofs.Lists
import TemplateMarkup.Proofs.Outline
import TemplateMarkup.Proofs.Preorder
import TemplateMarkup.Proofs.WellFormed
import TemplateMarkup.Proofs.Query.Grammar
import TemplateMarkup.Proofs.Query.Reading
import TemplateMarkup.Proofs.Query.Meaning
import TemplateMarkup.Proofs.Query.Paths
import TemplateMarkup.Proofs.Query.Casing
import TemplateMarkup.Proofs.Markup.Cursors
import TemplateMarkup.Proofs.Markup.Trees
import TemplateMarkup.Proofs.Markup.Automaton
import TemplateMarkup.Proofs.Markup.Stacks
import TemplateMarkup.Proofs.Markup.Paths
import TemplateMarkup.Proofs.Markup.Reductions
import TemplateMarkup.Proofs.Markup.Repairs
import TemplateMarkup.Proofs.Markup.Readers
import TemplateMarkup.Proofs.Markup.Nodes
import TemplateMarkup.Proofs.Markup.Shapes
import TemplateMarkup.Proofs.Markup.Piles
import TemplateMarkup.Proofs.Markup.Courses
import TemplateMarkup.Proofs.Markup.Effort
import TemplateMarkup.Proofs.Markup.Faultless
import TemplateMarkup.Proofs.Markup.Agreement
import TemplateMarkup.Proofs.Markup.Lookahead
import TemplateMarkup.Proofs.Markup.Values
import TemplateMarkup.Proofs.Markup.Likeness
import TemplateMarkup.Proofs.Markup.Retelling
import TemplateMarkup.Proofs.Resemblance
import TemplateMarkup.Proofs.Edit.Splices
import TemplateMarkup.Proofs.Edit.Places
import TemplateMarkup.Proofs.Edit.Update
import TemplateMarkup.Proofs.Edit.Wrap
import TemplateMarkup.Proofs.Edit.Weave
import TemplateMarkup.Proofs.Edit.Exact
import TemplateMarkup.Proofs.Edit.Renames
import TemplateMarkup.Proofs.Edit.Structure
import TemplateMarkup.Proofs.Edit.Solid
import TemplateMarkup.Proofs.Edit.Merges
import TemplateMarkup.Proofs.Region.Blocks
import TemplateMarkup.Proofs.Region.Balanced
import TemplateMarkup.Proofs.Region.Settled
import TemplateMarkup.Proofs.Region.Segments
import TemplateMarkup.Proofs.Region.CodeRows
import TemplateMarkup.Proofs.FileTree.Places
import TemplateMarkup.Proofs.FileTree.Writes
import TemplateMarkup.Proofs.Split.Files
import TemplateMarkup.Proofs.FileTree.Batches
import TemplateMarkup.Proofs.Split.Batches
import TemplateMarkup.Proofs.Edit.Files
import TemplateMarkup.Proofs.Edit.Batches
import TemplateMarkup.Proofs.FileTree.Contained
import TemplateMarkup.Proofs.Edit.Backups
import TemplateMarkup.Proofs.Paths
import TemplateMarkup.Proofs.Split.Projects
import TemplateMarkup.Proofs.Split.Orders
import TemplateMarkup.Proofs.Order
import TemplateMarkup.Proofs.Stylesheet
import TemplateMarkup.Proofs.Orphans
import TemplateMarkup.Proofs.ClassUses
import TemplateMarkup.Proofs.Pattern
import TemplateMarkup.Proofs.Bytes
import TemplateMarkup.Proofs.Glob
import TemplateMarkup.Proofs.Config
import TemplateMarkup.Proofs.Region.Bare
import TemplateMarkup.Proofs.Literal.Pieces
import TemplateMarkup.Proofs.Literal.Lexemes
import TemplateMarkup.Proofs.Literal.Bytewise
import TemplateMarkup.Proofs.Literal.Ends
import TemplateMarkup.Proofs.Literal.Agreement
import TemplateMarkup.Proofs.Literal.Boundaries
import TemplateMarkup.Proofs.Scan.Audits
import TemplateMarkup.Proofs.Json.Inline
import TemplateMarkup.Proofs.Server.Calls
import TemplateMarkup.Proofs.Server.Sessions
import TemplateMarkup.Proofs.Blanks
import TemplateMarkup.Proofs.AttributeMaps
import TemplateMarkup.Proofs.InnerText
import TemplateMarkup.Proofs.Repetitions
import TemplateMarkup.Proofs.Lines
import TemplateMarkup.Proofs.Split.ClassFiles
import TemplateMarkup.Proofs.Edit.Undo
import TemplateMarkup.Proofs.Diagnostics
import TemplateMarkup.Proofs.Json.Strings
import TemplateMarkup.Proofs.Json.Lists
import TemplateMarkup.Proofs.Split.PathLists
