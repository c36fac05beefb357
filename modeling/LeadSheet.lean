import LeadSheet.Chord.Database
import LeadSheet.Chord.Mention
import LeadSheet.Chord.Name
import LeadSheet.Chord.Oracle
import LeadSheet.Chord.Record
import LeadSheet.Command.Controls
import LeadSheet.Command.FileTree
import LeadSheet.Command.Help
import LeadSheet.Command.Host
import LeadSheet.Command.Interface
import LeadSheet.Command.Options
import LeadSheet.Command.Path
import LeadSheet.Command.Reader
import LeadSheet.Command.Run
import LeadSheet.Command.Similar
import LeadSheet.Command.SystemText
import LeadSheet.Command.Usage
import LeadSheet.Command.World
import LeadSheet.Diagram.Chart
import LeadSheet.Diagram.Layout
import LeadSheet.Diagram.Svg
import LeadSheet.Dictionary
import LeadSheet.Json.Error
import LeadSheet.Json.Reader
import LeadSheet.Json.Value
import LeadSheet.Log.Hierarchy
import LeadSheet.Log.Record
import LeadSheet.Log.Registry
import LeadSheet.Log.Router
import LeadSheet.Log.Template
import LeadSheet.Log.Timestamp
import LeadSheet.Main
import LeadSheet.Markup.Block
import LeadSheet.Markup.Body
import LeadSheet.Markup.Code
import LeadSheet.Markup.Html
import LeadSheet.Markup.Inline
import LeadSheet.Markup.ListNest
import LeadSheet.Markup.Piece
import LeadSheet.Markup.Raw.Block
import LeadSheet.Markup.Raw.Body
import LeadSheet.Markup.Raw.Inline
import LeadSheet.Markup.Raw.Table
import LeadSheet.Numeric.Binary64
import LeadSheet.Numeric.Decimal
import LeadSheet.Page.Sheet
import LeadSheet.Page.Style
import LeadSheet.Song.Document
import LeadSheet.Song.Song
import LeadSheet.Text.Case
import LeadSheet.Text.CaseTable
import LeadSheet.Text.Digit
import LeadSheet.Text.Escape
import LeadSheet.Text.Lines
import LeadSheet.Text.Pattern
import LeadSheet.Text.Printable
import LeadSheet.Text.Quoted
import LeadSheet.Text.Ranges
import LeadSheet.Text.Scan
import LeadSheet.Text.Space
import LeadSheet.Text.Utf8
import LeadSheet.Text.Word
import LeadSheet.Proofs.Chord.Candidates
import LeadSheet.Proofs.Chord.LoadReports
import LeadSheet.Proofs.Chord.Loading
import LeadSheet.Proofs.Chord.Mentions
import LeadSheet.Proofs.Chord.Names
import LeadSheet.Proofs.Chord.Records
import LeadSheet.Proofs.Chord.Spellings
import LeadSheet.Proofs.Command.Atomicity
import LeadSheet.Proofs.Command.Listing
import LeadSheet.Proofs.Command.Paths
import LeadSheet.Proofs.Command.Programs
import LeadSheet.Proofs.Command.Reader
import LeadSheet.Proofs.Command.Runs
import LeadSheet.Proofs.Command.Verbosity
import LeadSheet.Proofs.Diagram.Characters
import LeadSheet.Proofs.Diagram.Fingering
import LeadSheet.Proofs.Diagram.Geometry
import LeadSheet.Proofs.Diagram.Grid
import LeadSheet.Proofs.Diagram.Measures
import LeadSheet.Proofs.Diagram.Structure
import LeadSheet.Proofs.Diagram.Symbols
import LeadSheet.Proofs.Escape
import LeadSheet.Proofs.FrontMatter
import LeadSheet.Proofs.Json.Keys
import LeadSheet.Proofs.LineEnds
import LeadSheet.Proofs.Log.Hierarchy
import LeadSheet.Proofs.Log.Registry
import LeadSheet.Proofs.Log.Routing
import LeadSheet.Proofs.Markup.Blocks
import LeadSheet.Proofs.Markup.Chords
import LeadSheet.Proofs.Markup.Codeless
import LeadSheet.Proofs.Markup.Compose
import LeadSheet.Proofs.Markup.Crossing
import LeadSheet.Proofs.Markup.Elements
import LeadSheet.Proofs.Markup.Emphasised
import LeadSheet.Proofs.Markup.Entities
import LeadSheet.Proofs.Markup.Fences
import LeadSheet.Proofs.Markup.Letters
import LeadSheet.Proofs.Markup.ListForest
import LeadSheet.Proofs.Markup.Locality
import LeadSheet.Proofs.Markup.LyricSheet
import LeadSheet.Proofs.Markup.Lyrics
import LeadSheet.Proofs.Markup.Nesting
import LeadSheet.Proofs.Markup.Numbering.Blocks
import LeadSheet.Proofs.Markup.Numbering.Lines
import LeadSheet.Proofs.Markup.Parts
import LeadSheet.Proofs.Markup.Preformatted
import LeadSheet.Proofs.Markup.Quotes
import LeadSheet.Proofs.Markup.Raw.Blocks
import LeadSheet.Proofs.Markup.Raw.Body
import LeadSheet.Proofs.Markup.Raw.Code
import LeadSheet.Proofs.Markup.Raw.Emphasis
import LeadSheet.Proofs.Markup.Raw.Inline
import LeadSheet.Proofs.Markup.Raw.Parts
import LeadSheet.Proofs.Markup.Raw.Readers
import LeadSheet.Proofs.Markup.Raw.Restore
import LeadSheet.Proofs.Markup.Raw.Source
import LeadSheet.Proofs.Markup.Readers
import LeadSheet.Proofs.Markup.ReferenceLines
import LeadSheet.Proofs.Markup.Rewriting
import LeadSheet.Proofs.Markup.Safety
import LeadSheet.Proofs.Markup.Tables
import LeadSheet.Proofs.Markup.Tags
import LeadSheet.Proofs.Page.Frame
import LeadSheet.Proofs.Page.Gallery
import LeadSheet.Proofs.Pattern
import LeadSheet.Proofs.Scan
import LeadSheet.Proofs.Song.Diagrams
import LeadSheet.Proofs.Song.Fields
import LeadSheet.Proofs.Song.Trimming
