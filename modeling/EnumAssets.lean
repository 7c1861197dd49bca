import EnumAssets.Unicode.CharSet
import EnumAssets.Unicode.Letter
import EnumAssets.Unicode.NamePart
import EnumAssets.Unicode.Blank
import EnumAssets.Unicode.Hidden
import EnumAssets.Text.Utf8
import EnumAssets.Text.Quoted
import EnumAssets.Text.Choice
import EnumAssets.Text.Json
import EnumAssets.Number.Binary
import EnumAssets.Path.Basic
import EnumAssets.Path.Order
import EnumAssets.Identifier
import EnumAssets.Access
import EnumAssets.Toml.Moment
import EnumAssets.Toml.Value
import EnumAssets.Toml.Quote
import EnumAssets.Toml.Bare
import EnumAssets.Toml.Line
import EnumAssets.Toml.Document
import EnumAssets.Entry
import EnumAssets.Declaration.Basic
import EnumAssets.Declaration.Defect
import EnumAssets.Declaration.Code
import EnumAssets.Declaration.Edit
import EnumAssets.Failure
import EnumAssets.Asset
import EnumAssets.Config
import EnumAssets.Tree.Basic
import EnumAssets.Tree.Walk
import EnumAssets.Tree.Spot
import EnumAssets.Tree.Write
import EnumAssets.Scan
import EnumAssets.Glob.Pattern
import EnumAssets.Glob.Expand
import EnumAssets.Sources
import EnumAssets.Output
import EnumAssets.Command.Arguments
import EnumAssets.Command.Help
import EnumAssets.Command.Log
import EnumAssets.Command.Verdict
import EnumAssets.Command.Run
import EnumAssets.Main
import EnumAssets.Proofs.Text.Utf8
import EnumAssets.Proofs.Text.Roundtrip
import EnumAssets.Proofs.Text.Pieces
import EnumAssets.Proofs.Text.Occurrence
import EnumAssets.Proofs.Text.Lines
import EnumAssets.Proofs.Text.Json
import EnumAssets.Proofs.Identifier.Characters
import EnumAssets.Proofs.Identifier.Grammar
import EnumAssets.Proofs.Identifier.Language
import EnumAssets.Proofs.Declaration.Diagnosis
import EnumAssets.Proofs.Identifier.Confinement
import EnumAssets.Proofs.Declaration.Block
import EnumAssets.Proofs.Declaration.Scope
import EnumAssets.Proofs.Declaration.Decoding
import EnumAssets.Proofs.Declaration.Layout
import EnumAssets.Proofs.Declaration.Editing
import EnumAssets.Proofs.Declaration.Wrapping
import EnumAssets.Proofs.Declaration.Selection
import EnumAssets.Proofs.Number.Rounding
import EnumAssets.Proofs.Asset
import EnumAssets.Proofs.Path.Parent
import EnumAssets.Proofs.Path.Join
import EnumAssets.Proofs.Path.Stem
import EnumAssets.Proofs.Object
import EnumAssets.Proofs.Path.Order
import EnumAssets.Proofs.Path.Arrange
import EnumAssets.Proofs.Tree.Walk
import EnumAssets.Proofs.Tree.Place
import EnumAssets.Proofs.Tree.Growth
import EnumAssets.Proofs.Tree.Name
import EnumAssets.Proofs.Tree.Besides
import EnumAssets.Proofs.Tree.Spot
import EnumAssets.Proofs.Path.Reading
import EnumAssets.Proofs.Tree.Below
import EnumAssets.Proofs.Scan
import EnumAssets.Proofs.Scan.Visible
import EnumAssets.Proofs.Glob.Pattern
import EnumAssets.Proofs.Glob.Expand
import EnumAssets.Proofs.Glob.Within
import EnumAssets.Proofs.Output
import EnumAssets.Proofs.Output.Placement
import EnumAssets.Proofs.Output.Atomic
import EnumAssets.Proofs.Tree.Lasting
import EnumAssets.Proofs.Command.Loading
import EnumAssets.Proofs.Sources.Union
import EnumAssets.Proofs.Sources.SameFile
import EnumAssets.Proofs.Sources.Inside
import EnumAssets.Proofs.Command.Effect
import EnumAssets.Proofs.Command.Verdict
import EnumAssets.Proofs.Command.Account
import EnumAssets.Proofs.Command.Batch
import EnumAssets.Proofs.Command.Inputs
import EnumAssets.Proofs.Command.Again
import EnumAssets.Proofs.Command.Amount
