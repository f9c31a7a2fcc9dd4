import ConfigSnapshot.Command.Arguments
import ConfigSnapshot.Command.Completion
import ConfigSnapshot.Command.Manual
import ConfigSnapshot.Command.Options
import ConfigSnapshot.Command.Run
import ConfigSnapshot.Command.Usage
import ConfigSnapshot.Conversion.Report
import ConfigSnapshot.Conversion.Run
import ConfigSnapshot.Conversion.Visit
import ConfigSnapshot.FileTree.Access
import ConfigSnapshot.FileTree.Basic
import ConfigSnapshot.FileTree.Changes
import ConfigSnapshot.FileTree.Edit
import ConfigSnapshot.FileTree.Fault
import ConfigSnapshot.FileTree.Walk
import ConfigSnapshot.Log.Level
import ConfigSnapshot.Log.Line
import ConfigSnapshot.Log.Record
import ConfigSnapshot.NixModule.Event
import ConfigSnapshot.NixModule.Move
import ConfigSnapshot.NixModule.Scan
import ConfigSnapshot.Path.Basic
import ConfigSnapshot.Path.Order
import ConfigSnapshot.Proofs.NixModule.ConfigLine
import ConfigSnapshot.Proofs.Subsequence
import ConfigSnapshot.Proofs.Text.Cut
import ConfigSnapshot.Proofs.Text.Trim
import ConfigSnapshot.Subsequence
import ConfigSnapshot.Terminal.Paint
import ConfigSnapshot.Terminal.Plain
import ConfigSnapshot.Text.Blank
import ConfigSnapshot.Text.Bytes
import ConfigSnapshot.Text.Lines
import ConfigSnapshot.Text.Replace
import ConfigSnapshot.Main
import ConfigSnapshot.Proofs.NixModule.Target
import ConfigSnapshot.Proofs.NixModule.Eligible
import ConfigSnapshot.Proofs.FileTree.Content
import ConfigSnapshot.Proofs.FileTree.Rewritten
import ConfigSnapshot.Proofs.NixModule.Chain
import ConfigSnapshot.Proofs.Conversion.Listing
import ConfigSnapshot.Proofs.Conversion.Visit
import ConfigSnapshot.Proofs.Conversion.Run
import ConfigSnapshot.Proofs.Conversion.Failure
import ConfigSnapshot.Proofs.Conversion.Contents
import ConfigSnapshot.Proofs.Conversion.Reports
import ConfigSnapshot.Proofs.NixModule.Again
import ConfigSnapshot.Proofs.Conversion.Verdicts
import ConfigSnapshot.Proofs.Conversion.DryRun
import ConfigSnapshot.Proofs.Command.Reading
import ConfigSnapshot.Proofs.Command.Switches
import ConfigSnapshot.Proofs.Command.Slots
import ConfigSnapshot.Proofs.Command.Run
import ConfigSnapshot.Proofs.NixModule.Edit
import ConfigSnapshot.Proofs.FileTree.Named
import ConfigSnapshot.Proofs.Path.Last
import ConfigSnapshot.Proofs.Conversion.Single
import ConfigSnapshot.Proofs.Command.Diagnostics
import ConfigSnapshot.Proofs.NixModule.Noticed
import ConfigSnapshot.Proofs.Log.Render
import ConfigSnapshot.Proofs.Conversion.Steps
import ConfigSnapshot.Proofs.Command.Log
import ConfigSnapshot.Proofs.NixModule.Insertion
import ConfigSnapshot.Proofs.NixModule.Extension
import ConfigSnapshot.Proofs.Text.Padding
import ConfigSnapshot.Proofs.NixModule.Padding
import ConfigSnapshot.Proofs.NixModule.Trace
import ConfigSnapshot.Proofs.Subsequence.Reach
import ConfigSnapshot.Proofs.NixModule.Lines
import ConfigSnapshot.Proofs.FileTree.Joined
import ConfigSnapshot.Proofs.Conversion.Modules
import ConfigSnapshot.Proofs.Conversion.Keys
import ConfigSnapshot.Proofs.Text.Bytes
