import Markup.Batch
import Markup.Block
import Markup.Bracket
import Markup.Catalog
import Markup.Command.Arguments
import Markup.Command.Run
import Markup.Cursor
import Markup.Diagnostic
import Markup.Element
import Markup.Event
import Markup.Json
import Markup.Json.Decode
import Markup.Json.Encode
import Markup.Json.Parse
import Markup.Line
import Markup.Line.Groups
import Markup.Line.Source
import Markup.Listing
import Markup.Log
import Markup.Main
import Markup.Outline
import Markup.Problem
import Markup.Proofs.Batch.Detached
import Markup.Proofs.Batch.Findings
import Markup.Proofs.Batch.Isolation
import Markup.Proofs.Batch.Origin
import Markup.Proofs.Batch.Report
import Markup.Proofs.Batch.Seam
import Markup.Proofs.Batch.Sources
import Markup.Proofs.Batch.Trees
import Markup.Proofs.Block.Closed
import Markup.Proofs.Block.Detached
import Markup.Proofs.Block.Echo
import Markup.Proofs.Block.Extent
import Markup.Proofs.Block.Form
import Markup.Proofs.Block.Machine
import Markup.Proofs.Block.Origin
import Markup.Proofs.Block.Printed
import Markup.Proofs.Block.Rejected
import Markup.Proofs.Block.Report
import Markup.Proofs.Block.Standing
import Markup.Proofs.Bracket
import Markup.Proofs.Bracket.Arguments
import Markup.Proofs.Bracket.Depth
import Markup.Proofs.Bracket.Grouped
import Markup.Proofs.Bracket.Pairing
import Markup.Proofs.Bracket.Splitting
import Markup.Proofs.Bracket.Squares
import Markup.Proofs.Bracket.Successive
import Markup.Proofs.Checked.Lines
import Markup.Proofs.Checked.Readings
import Markup.Proofs.Checked.Scans
import Markup.Proofs.Cursor.Consumed
import Markup.Proofs.Cursor.Session
import Markup.Proofs.Diagnostic
import Markup.Proofs.Echo
import Markup.Proofs.Event
import Markup.Proofs.Json.Declared
import Markup.Proofs.Json.Forms
import Markup.Proofs.Json.Reading
import Markup.Proofs.Line.Conserved
import Markup.Proofs.Line.Detached
import Markup.Proofs.Line.Format
import Markup.Proofs.Line.Formed
import Markup.Proofs.Line.Groups
import Markup.Proofs.Line.Joined
import Markup.Proofs.Line.Layout
import Markup.Proofs.Line.Numbered
import Markup.Proofs.Line.Reread
import Markup.Proofs.Line.Run
import Markup.Proofs.Line.Scanned
import Markup.Proofs.Line.Sentence
import Markup.Proofs.Line.Unfolded
import Markup.Proofs.Listing
import Markup.Proofs.Outline.Aside
import Markup.Proofs.Outline.Balance
import Markup.Proofs.Outline.Detached
import Markup.Proofs.Outline.Echo
import Markup.Proofs.Outline.Entry
import Markup.Proofs.Outline.Extent
import Markup.Proofs.Outline.Origin
import Markup.Proofs.Outline.Places
import Markup.Proofs.Outline.Rejected
import Markup.Proofs.Outline.Report
import Markup.Proofs.Part
import Markup.Proofs.Printed
import Markup.Proofs.Problem
import Markup.Proofs.Report
import Markup.Proofs.RoundTrip
import Markup.Proofs.Shape
import Markup.Proofs.Shape.Forms
import Markup.Proofs.Shape.Parts
import Markup.Proofs.Shape.Text
import Markup.Proofs.Statement
import Markup.Proofs.Text.Bytes
import Markup.Proofs.Text.Quoted
import Markup.Proofs.Token
import Markup.Shape
import Markup.Statement
import Markup.Text.Alphabetic
import Markup.Text.CodeRanges
import Markup.Text.GraphemeExtend
import Markup.Text.Ignorable
import Markup.Text.Numeric
import Markup.Text.Plain
import Markup.Text.Quoted
import Markup.Text.Unprintable
import Markup.Token
