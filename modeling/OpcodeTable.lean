import OpcodeTable.Build
import OpcodeTable.Choices
import OpcodeTable.CommandLine.Arguments
import OpcodeTable.CommandLine.Run
import OpcodeTable.Corpus
import OpcodeTable.Database
import OpcodeTable.Encoding.Basic
import OpcodeTable.Encoding.Packed
import OpcodeTable.Encoding.PrefixByte
import OpcodeTable.Encoding.Printer
import OpcodeTable.Encoding.Reader
import OpcodeTable.ExternalAssembler
import OpcodeTable.FaultRecord
import OpcodeTable.FileTree
import OpcodeTable.Json.Basic
import OpcodeTable.Json.Printer
import OpcodeTable.Json.Reader
import OpcodeTable.Json.Token
import OpcodeTable.Main
import OpcodeTable.Odometer
import OpcodeTable.Operand.Basic
import OpcodeTable.Operand.Expansion
import OpcodeTable.Operand.Lexeme
import OpcodeTable.Operand.Name
import OpcodeTable.Options.Basic
import OpcodeTable.Options.Name
import OpcodeTable.Pool.Error
import OpcodeTable.Pool.Plan
import OpcodeTable.Pool.Run
import OpcodeTable.Pool.Worker
import OpcodeTable.Proofs.Build.Accounting
import OpcodeTable.Proofs.Build.Contents
import OpcodeTable.Proofs.Build.Offers
import OpcodeTable.Proofs.Build.Permutation
import OpcodeTable.Proofs.Build.Rejections
import OpcodeTable.Proofs.Build.Strictness
import OpcodeTable.Proofs.Choices
import OpcodeTable.Proofs.CommandLine.Failure
import OpcodeTable.Proofs.Corpus
import OpcodeTable.Proofs.Corpus.Line
import OpcodeTable.Proofs.Encoding.Description
import OpcodeTable.Proofs.Encoding.FoldPlace
import OpcodeTable.Proofs.Encoding.Grammar
import OpcodeTable.Proofs.Encoding.Group
import OpcodeTable.Proofs.Encoding.OpcodeNumber
import OpcodeTable.Proofs.Encoding.Packed
import OpcodeTable.Proofs.Encoding.Redisplay
import OpcodeTable.Proofs.Encoding.Reordering
import OpcodeTable.Proofs.Encoding.Word
import OpcodeTable.Proofs.ExternalAssembler.Bystander
import OpcodeTable.Proofs.ExternalAssembler.Isolation
import OpcodeTable.Proofs.ExternalAssembler.Pipeline
import OpcodeTable.Proofs.ExternalAssembler.Scratch
import OpcodeTable.Proofs.ExternalAssembler.Substitution
import OpcodeTable.Proofs.FileTree
import OpcodeTable.Proofs.Json.RoundTrip
import OpcodeTable.Proofs.Json.Scan
import OpcodeTable.Proofs.Odometer
import OpcodeTable.Proofs.Operand.Annotations
import OpcodeTable.Proofs.Operand.Expansion
import OpcodeTable.Proofs.Operand.Faults
import OpcodeTable.Proofs.Operand.Items
import OpcodeTable.Proofs.Operand.Recording
import OpcodeTable.Proofs.Operand.Writing
import OpcodeTable.Proofs.Order.Bytes
import OpcodeTable.Proofs.Order.Keys
import OpcodeTable.Proofs.Order.Sorting
import OpcodeTable.Proofs.Pool.Collection
import OpcodeTable.Proofs.Pool.Completion
import OpcodeTable.Proofs.Pool.Failure
import OpcodeTable.Proofs.Pool.Plan
import OpcodeTable.Proofs.Pool.Release
import OpcodeTable.Proofs.Pool.Replay
import OpcodeTable.Proofs.Pool.Results
import OpcodeTable.Proofs.Pool.Run
import OpcodeTable.Proofs.Pool.Shares
import OpcodeTable.Proofs.Pool.Worker
import OpcodeTable.Proofs.Record
import OpcodeTable.Proofs.Report
import OpcodeTable.Proofs.Selection
import OpcodeTable.Proofs.Table.EntryOrder
import OpcodeTable.Proofs.Table.Layout
import OpcodeTable.Proofs.Table.Link
import OpcodeTable.Proofs.Table.LinkTarget
import OpcodeTable.Proofs.Table.Lookup
import OpcodeTable.Proofs.Table.Record
import OpcodeTable.Proofs.Table.RecordLines
import OpcodeTable.Proofs.Table.Resorting
import OpcodeTable.Proofs.Table.RowOrder
import OpcodeTable.Proofs.Table.RowText
import OpcodeTable.Proofs.TestCase.Cases
import OpcodeTable.Proofs.TestCase.Catalogue
import OpcodeTable.Proofs.Text.Blank
import OpcodeTable.Proofs.Text.Hex
import OpcodeTable.Proofs.Text.Name
import OpcodeTable.Proofs.Text.Pieces
import OpcodeTable.Proofs.Text.Places
import OpcodeTable.Proofs.Verification
import OpcodeTable.Record
import OpcodeTable.Report
import OpcodeTable.Script.Arithmetic
import OpcodeTable.Script.Basic
import OpcodeTable.Script.Builtin
import OpcodeTable.Script.Field
import OpcodeTable.Script.Format
import OpcodeTable.Script.Grammar
import OpcodeTable.Script.Launch
import OpcodeTable.Script.Pattern
import OpcodeTable.Script.Run
import OpcodeTable.Script.State
import OpcodeTable.Script.Token
import OpcodeTable.SyntaxError
import OpcodeTable.Table.Basic
import OpcodeTable.Table.Error
import OpcodeTable.Table.Link
import OpcodeTable.Table.Lookup
import OpcodeTable.Table.Printer
import OpcodeTable.Table.Record
import OpcodeTable.Table.RowOrder
import OpcodeTable.TestCase.Basic
import OpcodeTable.TestCase.Catalogue
import OpcodeTable.Text.Blank
import OpcodeTable.Text.Decimal
import OpcodeTable.Text.Hex
import OpcodeTable.Text.Name
import OpcodeTable.Text.Order
import OpcodeTable.Text.Quoted
import OpcodeTable.Text.Replace
import OpcodeTable.Text.Shown
import OpcodeTable.Text.Utf8
import OpcodeTable.Text.Words
import OpcodeTable.Variant.Basic
import OpcodeTable.Variant.Selection
import OpcodeTable.Verification
