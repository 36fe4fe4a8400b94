import Wireframe.Cascade.Condition
import Wireframe.Cascade.Merge
import Wireframe.Cascade.Resolve
import Wireframe.Command.Arguments
import Wireframe.Command.Files
import Wireframe.Command.Run
import Wireframe.Decimal.Binary
import Wireframe.Decimal.Text
import Wireframe.Document
import Wireframe.Environment
import Wireframe.Failure
import Wireframe.Focus.FormFlow
import Wireframe.Focus.Order
import Wireframe.Issue
import Wireframe.Journal
import Wireframe.Keyed
import Wireframe.Layout.Cells
import Wireframe.Layout.Defects
import Wireframe.Layout.Lines
import Wireframe.Layout.Measure
import Wireframe.Layout.Place
import Wireframe.Layout.Placement
import Wireframe.Layout.Quantity
import Wireframe.Layout.Scalar
import Wireframe.Layout.Screen
import Wireframe.Layout.Spacing
import Wireframe.Main
import Wireframe.Node.Basic
import Wireframe.Node.Reading
import Wireframe.Node.Tree
import Wireframe.Node.Writing
import Wireframe.Pattern.Catalog
import Wireframe.Pattern.Collapsibles
import Wireframe.Pattern.Forms
import Wireframe.Pattern.Rule
import Wireframe.Pattern.Steps
import Wireframe.Pattern.Suggestion
import Wireframe.Pattern.Tables
import Wireframe.Pattern.Wizards
import Wireframe.Proofs.Address
import Wireframe.Proofs.Ancestors
import Wireframe.Proofs.Cascade.Condition
import Wireframe.Proofs.Cascade.Constant
import Wireframe.Proofs.Cascade.Law
import Wireframe.Proofs.Cascade.Mentioned
import Wireframe.Proofs.Cascade.Order
import Wireframe.Proofs.Cascade.Overlay
import Wireframe.Proofs.Cascade.Places
import Wireframe.Proofs.Cascade.Resolve
import Wireframe.Proofs.Command.Files
import Wireframe.Proofs.Command.Outcome
import Wireframe.Proofs.Document
import Wireframe.Proofs.Focus.FormOrder
import Wireframe.Proofs.Focus.Hidden
import Wireframe.Proofs.Focus.LateFields
import Wireframe.Proofs.Focus.Order
import Wireframe.Proofs.Focus.Renaming
import Wireframe.Proofs.Hidden
import Wireframe.Proofs.Inside
import Wireframe.Proofs.Issue
import Wireframe.Proofs.Keyed
import Wireframe.Proofs.Layout.Blocks
import Wireframe.Proofs.Layout.Bounds
import Wireframe.Proofs.Layout.Cells
import Wireframe.Proofs.Layout.Column
import Wireframe.Proofs.Layout.Containment
import Wireframe.Proofs.Layout.Context
import Wireframe.Proofs.Layout.ControlSizes
import Wireframe.Proofs.Layout.Exact
import Wireframe.Proofs.Layout.Fold
import Wireframe.Proofs.Layout.FrameOrder
import Wireframe.Proofs.Layout.Hidden
import Wireframe.Proofs.Layout.Lengths
import Wireframe.Proofs.Layout.Locations
import Wireframe.Proofs.Layout.Notes
import Wireframe.Proofs.Layout.Offers
import Wireframe.Proofs.Layout.Overflow
import Wireframe.Proofs.Layout.Renaming
import Wireframe.Proofs.Layout.Returns
import Wireframe.Proofs.Layout.Spots
import Wireframe.Proofs.Layout.Targets
import Wireframe.Proofs.Layout.TextLines
import Wireframe.Proofs.Layout.Widths
import Wireframe.Proofs.Layout.Wrap
import Wireframe.Proofs.Locations
import Wireframe.Proofs.Mentions
import Wireframe.Proofs.Node.Columns
import Wireframe.Proofs.Node.Document
import Wireframe.Proofs.Node.Fields
import Wireframe.Proofs.Node.HeaderRoundTrip
import Wireframe.Proofs.Node.Reading
import Wireframe.Proofs.Node.RoundTrip
import Wireframe.Proofs.Node.Writing
import Wireframe.Proofs.Order
import Wireframe.Proofs.Parents
import Wireframe.Proofs.Pattern.ActionOrder
import Wireframe.Proofs.Pattern.ActionRows
import Wireframe.Proofs.Pattern.Adjacency
import Wireframe.Proofs.Pattern.Affordances
import Wireframe.Proofs.Pattern.Controls
import Wireframe.Proofs.Pattern.Fitting
import Wireframe.Proofs.Pattern.Hidden
import Wireframe.Proofs.Pattern.HiddenSections
import Wireframe.Proofs.Pattern.HiddenSteps
import Wireframe.Proofs.Pattern.Keywords
import Wireframe.Proofs.Pattern.Numbering
import Wireframe.Proofs.Pattern.RenamedSteps
import Wireframe.Proofs.Pattern.Renaming
import Wireframe.Proofs.Pattern.Rule
import Wireframe.Proofs.Pattern.Scopes
import Wireframe.Proofs.Pattern.Selection
import Wireframe.Proofs.Pattern.Verdicts
import Wireframe.Proofs.Pattern.Wizards
import Wireframe.Proofs.Plain
import Wireframe.Proofs.Pointer
import Wireframe.Proofs.Pointer.RoundTrip
import Wireframe.Proofs.Record.Reading
import Wireframe.Proofs.Record.Spelling
import Wireframe.Proofs.Record.Writing
import Wireframe.Proofs.Renaming
import Wireframe.Proofs.Scaffold
import Wireframe.Proofs.Score.Gate
import Wireframe.Proofs.Score.Monotone
import Wireframe.Proofs.Score.Overall
import Wireframe.Proofs.Spelling
import Wireframe.Proofs.Text.Numeral
import Wireframe.Proofs.Text.Points
import Wireframe.Proofs.Text.Viewport
import Wireframe.Proofs.Text.Words
import Wireframe.Proofs.Value.Double
import Wireframe.Proofs.Value.Infinite
import Wireframe.Proofs.Value.Nearest
import Wireframe.Proofs.Value.Objects
import Wireframe.Proofs.Value.Order
import Wireframe.Proofs.Value.Rounding
import Wireframe.Proofs.Value.Unpacked
import Wireframe.Proofs.Viewports
import Wireframe.Record.Fault
import Wireframe.Record.Reading
import Wireframe.Record.Shape
import Wireframe.Report
import Wireframe.Room
import Wireframe.Scaffold
import Wireframe.Score.Categories
import Wireframe.Score.Gate
import Wireframe.Spacing
import Wireframe.Sum
import Wireframe.Text.Blank
import Wireframe.Text.Bytes
import Wireframe.Text.Case
import Wireframe.Text.Digit
import Wireframe.Text.Keyword
import Wireframe.Text.Numeral
import Wireframe.Text.Point
import Wireframe.Text.Printable
import Wireframe.Text.Quoted
import Wireframe.Text.Range
import Wireframe.Text.Word
import Wireframe.Trail
import Wireframe.Value.Arithmetic
import Wireframe.Value.Basic
import Wireframe.Value.Number
import Wireframe.Value.Pointer
import Wireframe.Value.Reader
import Wireframe.Value.Writer
import Wireframe.Viewport
