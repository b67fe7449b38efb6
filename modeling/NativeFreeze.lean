import NativeFreeze.Archive
import NativeFreeze.Bundle.Pack
import NativeFreeze.Bundle.Plan
import NativeFreeze.CommandLine.Arguments
import NativeFreeze.CommandLine.Filter
import NativeFreeze.CommandLine.Run
import NativeFreeze.Descriptor
import NativeFreeze.Failure
import NativeFreeze.FileTree.Basic
import NativeFreeze.FileTree.Change
import NativeFreeze.FileTree.Load
import NativeFreeze.Generated.Bootstrap
import NativeFreeze.Generated.CString
import NativeFreeze.Generated.Contract
import NativeFreeze.Generated.Finder
import NativeFreeze.Generated.Identity
import NativeFreeze.Generated.Registration
import NativeFreeze.Layout.Basic
import NativeFreeze.Layout.Probe
import NativeFreeze.Log
import NativeFreeze.Main
import NativeFreeze.Manifest.Basic
import NativeFreeze.Node.Basic
import NativeFreeze.Node.Context
import NativeFreeze.Node.Executable
import NativeFreeze.Node.Module
import NativeFreeze.Path.Basic
import NativeFreeze.Process
import NativeFreeze.Settings.Basic
import NativeFreeze.Shell.Arithmetic
import NativeFreeze.Shell.Expansion
import NativeFreeze.Shell.Format
import NativeFreeze.Shell.Glob
import NativeFreeze.Shell.Launch
import NativeFreeze.Shell.Machine
import NativeFreeze.Shell.Pattern
import NativeFreeze.Shell.Program
import NativeFreeze.Shell.Run
import NativeFreeze.Shell.Syntax
import NativeFreeze.Shell.Test
import NativeFreeze.Shell.Utility
import NativeFreeze.Shell.Utility.Basic
import NativeFreeze.Shell.Utility.Files
import NativeFreeze.Shell.Utility.Streams
import NativeFreeze.Source.Basic
import NativeFreeze.Source.Pattern
import NativeFreeze.Text.Basic
import NativeFreeze.Text.Utf8
import NativeFreeze.Text.Word
import NativeFreeze.Toml.Document
import NativeFreeze.Toml.Records
import NativeFreeze.Toml.Scalar
import NativeFreeze.Toml.Value
import NativeFreeze.Tool.Request
import NativeFreeze.Tool.Toolchain
import NativeFreeze.Tool.Transpiler
import NativeFreeze.Trace.Capture
import NativeFreeze.Trace.ImportLog
import NativeFreeze.Unit.Basic
import NativeFreeze.Unit.Script
import NativeFreeze.Workspace
import NativeFreeze.Proofs.Requests
import NativeFreeze.Proofs.Unit.Lifecycle
import NativeFreeze.Proofs.Text.Split
import NativeFreeze.Proofs.Unit.Build
import NativeFreeze.Proofs.Generated.Symbol
import NativeFreeze.Proofs.Node.Export
import NativeFreeze.Proofs.Node.Sample
import NativeFreeze.Proofs.FileTree
import NativeFreeze.Proofs.Path
import NativeFreeze.Proofs.Node.Executable
import NativeFreeze.Proofs.Node.InitSymbols
import NativeFreeze.Proofs.Text.Lines
import NativeFreeze.Proofs.Trace.ImportLog
import NativeFreeze.Proofs.Path.Order
import NativeFreeze.Proofs.Bundle.Plan
import NativeFreeze.Proofs.Path.Components
import NativeFreeze.Proofs.FileTree.Resolve
import NativeFreeze.Proofs.FileTree.Visit
import NativeFreeze.Proofs.Bundle.Pack
import NativeFreeze.Proofs.Generated.Bootstrap
import NativeFreeze.Proofs.Node.Runtime
import NativeFreeze.Proofs.Invariant
import NativeFreeze.Proofs.Footprint
import NativeFreeze.Proofs.Node.Artifacts
import NativeFreeze.Proofs.FileTree.Footprint
import NativeFreeze.Proofs.Node.Footprint
import NativeFreeze.Proofs.Node.Run
import NativeFreeze.Proofs.Node.Bundled
import NativeFreeze.Proofs.Manifest.Nodes
import NativeFreeze.Proofs.Manifest.Rebuild
import NativeFreeze.Proofs.Path.Extension
import NativeFreeze.Proofs.Manifest.Generated
import NativeFreeze.Proofs.Layout.Probe
import NativeFreeze.Proofs.Bundle.Entries
import NativeFreeze.Proofs.Layout.Required
import NativeFreeze.Proofs.Bundle.Names
import NativeFreeze.Proofs.Text.Cut
import NativeFreeze.Proofs.Trace.Artifact
import NativeFreeze.Proofs.Trace.Visible
import NativeFreeze.Proofs.Turns
import NativeFreeze.Proofs.Node.Turns
import NativeFreeze.Proofs.Node.Cleanable
import NativeFreeze.Proofs.Text.Utf8
import NativeFreeze.Proofs.Unit.Generated
import NativeFreeze.Proofs.Text.Ended
import NativeFreeze.Proofs.Generated.Identity
import NativeFreeze.Proofs.Source.Names
import NativeFreeze.Proofs.Node.Package
import NativeFreeze.Proofs.Node.Finder
import NativeFreeze.Proofs.Generated.Slots
import NativeFreeze.Proofs.Generated.Once
import NativeFreeze.Proofs.Node.Cleanup
import NativeFreeze.Proofs.Unit.Data
import NativeFreeze.Proofs.Unit.Refused
import NativeFreeze.Proofs.Generated.Python
import NativeFreeze.Proofs.Generated.FinderSpec
import NativeFreeze.Proofs.Layout.Innermost
import NativeFreeze.Proofs.Text.Lower
import NativeFreeze.Proofs.Layout.Spelling
import NativeFreeze.Proofs.Bundle.Members
import NativeFreeze.Proofs.FileTree.Copies
import NativeFreeze.Proofs.Bundle.Libraries
import NativeFreeze.Proofs.Trace.Groups
import NativeFreeze.Proofs.Trace.Rooted
import NativeFreeze.Proofs.Trace.ReadBack
import NativeFreeze.Proofs.Bundle.Collapse
import NativeFreeze.Proofs.Source.Pattern
import NativeFreeze.Proofs.Tool.Objects
import NativeFreeze.Proofs.Source.Separators
import NativeFreeze.Proofs.Descriptor.Script
import NativeFreeze.Proofs.Descriptor.ReadBack
import NativeFreeze.Proofs.Generated.Adjacent
import NativeFreeze.Proofs.Text.Slice
import NativeFreeze.Proofs.Trace.Slices
