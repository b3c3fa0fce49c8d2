import ComponentDocs.Files.Disk
import ComponentDocs.Main
import ComponentDocs.Settings.Json
import ComponentDocs.Proofs.Files.Task
import ComponentDocs.Proofs.Query.Question
import ComponentDocs.Proofs.Query.Call
import ComponentDocs.Proofs.Query.Session
import ComponentDocs.Proofs.Release.Event
import ComponentDocs.Proofs.Release.History
import ComponentDocs.Proofs.Text.Pipes
import ComponentDocs.Proofs.Page.Row
import ComponentDocs.Proofs.Assembly.Collect
import ComponentDocs.Proofs.Page.Table
import ComponentDocs.Proofs.Assembly.Entities
import ComponentDocs.Proofs.Markdown.Cursor
import ComponentDocs.Proofs.Markdown.Line
import ComponentDocs.Proofs.Markdown.Shift
import ComponentDocs.Proofs.Markdown.Bounds
import ComponentDocs.Proofs.Markdown.Ending
import ComponentDocs.Proofs.Markdown.Site
import ComponentDocs.Proofs.Markdown.Piece
import ComponentDocs.Proofs.Markdown.Range
import ComponentDocs.Proofs.Page.Section
import ComponentDocs.Proofs.Markdown.Flat
import ComponentDocs.Proofs.Markdown.Part
import ComponentDocs.Proofs.Page.Part
import ComponentDocs.Proofs.Text.Lines
import ComponentDocs.Proofs.Page.FrontMatter
import ComponentDocs.Proofs.Page.FrontValues
import ComponentDocs.Proofs.Page.TablePart
import ComponentDocs.Proofs.Page.TableText
import ComponentDocs.Proofs.Assembly.CanonicalRow
import ComponentDocs.Proofs.Assembly.CanonicalPage
import ComponentDocs.Proofs.Build.Replacement
import ComponentDocs.Proofs.Store.Corpus
import ComponentDocs.Proofs.TypeExpression.Brackets
import ComponentDocs.Proofs.TypeExpression.Signature
import ComponentDocs.Proofs.TypeExpression.Form
import ComponentDocs.Proofs.Editor.TypeText
import ComponentDocs.Proofs.Number.Rounding
import ComponentDocs.Proofs.Number.Shortest
import ComponentDocs.Proofs.Json.Number
import ComponentDocs.Proofs.Json.Literal
import ComponentDocs.Proofs.Json.Written
import ComponentDocs.Proofs.Editor.Defaults
import ComponentDocs.Proofs.Assembly.Names
import ComponentDocs.Proofs.Assembly.Title
import ComponentDocs.Proofs.Query.Fetch
import ComponentDocs.Proofs.Query.Reordering
import ComponentDocs.Proofs.Build.Commit
import ComponentDocs.Proofs.Text.Escape
import ComponentDocs.Proofs.TypeExpression.Search
import ComponentDocs.Proofs.TypeExpression.Span
import ComponentDocs.Proofs.TypeExpression.Union
import ComponentDocs.Proofs.TypeExpression.Marked
import ComponentDocs.Proofs.TypeExpression.Alternatives
import ComponentDocs.Proofs.Assembly.Methods
import ComponentDocs.Proofs.Assembly.CodeSample
import ComponentDocs.Proofs.Store.Lookup
import ComponentDocs.Proofs.Store.Confinement
import ComponentDocs.Proofs.Query.Search
import ComponentDocs.Proofs.Page.Surroundings
import ComponentDocs.Proofs.Markdown.RowStep
import ComponentDocs.Proofs.Markdown.Rows
import ComponentDocs.Proofs.Page.RowCells
import ComponentDocs.Proofs.Page.Columns
import ComponentDocs.Proofs.Assembly.Columns
import ComponentDocs.Proofs.Component.Spelling
import ComponentDocs.Proofs.Component.DoubledHyphen
import ComponentDocs.Proofs.Component.Tag
import ComponentDocs.Proofs.Page.Block
import ComponentDocs.Proofs.Query.Keyword
import ComponentDocs.Proofs.Page.HeadingLine
import ComponentDocs.Proofs.Page.Introduction
import ComponentDocs.Proofs.Editor.QuotedDefault
import ComponentDocs.Proofs.Page.LineEnds
import ComponentDocs.Proofs.Release.Bookkeeping
import ComponentDocs.Proofs.TypeExpression.Depth
import ComponentDocs.Proofs.Settings.File
