import MarkdownWord.Archive
import MarkdownWord.CommandLine.Arguments
import MarkdownWord.CommandLine.Run
import MarkdownWord.Configuration
import MarkdownWord.Disk
import MarkdownWord.Download
import MarkdownWord.FileTree
import MarkdownWord.Json
import MarkdownWord.Main
import MarkdownWord.Markdown.Block
import MarkdownWord.Markdown.Definition
import MarkdownWord.Markdown.Delimiter
import MarkdownWord.Markdown.Destination
import MarkdownWord.Markdown.Entity
import MarkdownWord.Markdown.Html
import MarkdownWord.Markdown.Inline
import MarkdownWord.Markdown.Line
import MarkdownWord.Markdown.Span
import MarkdownWord.Markdown.Start
import MarkdownWord.Markdown.Table
import MarkdownWord.Node
import MarkdownWord.Node.OfMarkdown
import MarkdownWord.Node.OfTokens
import MarkdownWord.Number.Binary64
import MarkdownWord.Number.Decimal
import MarkdownWord.Path
import MarkdownWord.Pipeline
import MarkdownWord.Proofs.ComposedLayout
import MarkdownWord.Proofs.Conversion
import MarkdownWord.Proofs.Delimiters
import MarkdownWord.Proofs.Destinations
import MarkdownWord.Proofs.DownloadHeaders
import MarkdownWord.Proofs.FencedCode
import MarkdownWord.Proofs.Formats
import MarkdownWord.Proofs.Layout
import MarkdownWord.Proofs.Leaves
import MarkdownWord.Proofs.Links
import MarkdownWord.Proofs.NestedLists
import MarkdownWord.Proofs.NestingLimit
import MarkdownWord.Proofs.Packing
import MarkdownWord.Proofs.PropertyPlaces
import MarkdownWord.Proofs.ParsedTrees
import MarkdownWord.Proofs.ReadingOrder
import MarkdownWord.Proofs.Results
import MarkdownWord.Proofs.RunLooks
import MarkdownWord.Proofs.Readings
import MarkdownWord.Proofs.Sizes
import MarkdownWord.Proofs.TreeGrammar
import MarkdownWord.Service
import MarkdownWord.Text.Affix
import MarkdownWord.Text.Blank
import MarkdownWord.Text.CaseFold
import MarkdownWord.Text.Digit
import MarkdownWord.Text.LineEnd
import MarkdownWord.Text.Percent
import MarkdownWord.Text.Printable
import MarkdownWord.Text.Punctuation
import MarkdownWord.Text.Quoted
import MarkdownWord.Token
import MarkdownWord.Value
import MarkdownWord.Word.Blocks
import MarkdownWord.Word.Color
import MarkdownWord.Word.Document
import MarkdownWord.Word.ListPart
import MarkdownWord.Word.ListScheme
import MarkdownWord.Word.Markup.Block
import MarkdownWord.Word.Markup.Paragraph
import MarkdownWord.Word.Markup.Run
import MarkdownWord.Word.Measure
import MarkdownWord.Word.Package
import MarkdownWord.Word.Parts
import MarkdownWord.Word.Reading
import MarkdownWord.Word.RenderError
import MarkdownWord.Word.Runs
import MarkdownWord.Word.Saving
import MarkdownWord.Word.StyleSheet
import MarkdownWord.Word.Xml
import MarkdownWord.Word.XmlText
import MarkdownWord.Proofs.BlockLooks
import MarkdownWord.Proofs.Elements
import MarkdownWord.Proofs.ListLevels
import MarkdownWord.Proofs.ListReferences
import MarkdownWord.Proofs.ListRegistration
import MarkdownWord.Proofs.Counters
import MarkdownWord.Proofs.ListNumbers
import MarkdownWord.Proofs.Outlines
import MarkdownWord.Proofs.Relationships
import MarkdownWord.Proofs.Hyperlinks
import MarkdownWord.Proofs.SingleLines
import MarkdownWord.Proofs.PlainTexts
import MarkdownWord.Proofs.Pairings
import MarkdownWord.Proofs.LeadingTexts
import MarkdownWord.Proofs.EscapedTexts
import MarkdownWord.Proofs.CarriedTexts
import MarkdownWord.Proofs.ShownTexts
import MarkdownWord.Proofs.BulletedLines
import MarkdownWord.Proofs.TaskMarkers
import MarkdownWord.Proofs.Titles
import MarkdownWord.Proofs.Respellings
import MarkdownWord.Proofs.FileNames
import MarkdownWord.Proofs.FileFrames
import MarkdownWord.Proofs.DiskFrames
import MarkdownWord.Proofs.CommandFiles
import MarkdownWord.Proofs.Answers
import MarkdownWord.Proofs.EntryPoints
import MarkdownWord.Proofs.PropertyOrder
import MarkdownWord.Proofs.QuotedBlocks
import MarkdownWord.Proofs.Separation
import MarkdownWord.Proofs.TokenTexts
import MarkdownWord.Proofs.LinkedRuns
import MarkdownWord.Proofs.TableHeads
import MarkdownWord.Proofs.TableGrid
import MarkdownWord.Proofs.Statistics
import MarkdownWord.Proofs.RunTexts
import MarkdownWord.Proofs.DownloadNames
import MarkdownWord.Proofs.FallbackNames
import MarkdownWord.Proofs.ReadSpans
import MarkdownWord.Proofs.UnmarkedTexts
import MarkdownWord.Proofs.Images
import MarkdownWord.Markdown.Tokens
import MarkdownWord.Proofs.TokenTrees
