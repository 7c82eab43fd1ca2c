import ReleaseBuild.Text
import ReleaseBuild.Version
import ReleaseBuild.Stage
import ReleaseBuild.Path
import ReleaseBuild.Architecture
import ReleaseBuild.Glob.Pattern
import ReleaseBuild.Glob.Walk
import ReleaseBuild.Diagnostic
import ReleaseBuild.Problems
import ReleaseBuild.Artifact
import ReleaseBuild.Layout
import ReleaseBuild.Host.IoError
import ReleaseBuild.Host.FileTree
import ReleaseBuild.Command
import ReleaseBuild.Failure
import ReleaseBuild.Header
import ReleaseBuild.Settings
import ReleaseBuild.Double
import ReleaseBuild.Settings.Document
import ReleaseBuild.Environment
import ReleaseBuild.Configuration
import ReleaseBuild.Machine
import ReleaseBuild.Files
import ReleaseBuild.Staging
import ReleaseBuild.Signing
import ReleaseBuild.Building
import ReleaseBuild.Packaging
import ReleaseBuild.Release
import ReleaseBuild.Toml.Error
import ReleaseBuild.Toml.Value
import ReleaseBuild.Toml.Tree
import ReleaseBuild.Toml.Document
import ReleaseBuild.Settings.File
import ReleaseBuild.Logging
import ReleaseBuild.Cli.Options
import ReleaseBuild.Cli.Arguments
import ReleaseBuild.Shell.Syntax
import ReleaseBuild.Shell.Lexer
import ReleaseBuild.Shell.Parser
import ReleaseBuild.Shell.Pattern
import ReleaseBuild.Shell.Regex
import ReleaseBuild.Shell.Arith
import ReleaseBuild.Shell.Process
import ReleaseBuild.Shell.Tool
import ReleaseBuild.Shell.Tools.Test
import ReleaseBuild.Shell.Tools.Format
import ReleaseBuild.Shell.Tools.Text
import ReleaseBuild.Shell.Tools.Files
import ReleaseBuild.Shell.Tools.Sed
import ReleaseBuild.Shell.Tools.Find
import ReleaseBuild.Shell.Tools.Expr
import ReleaseBuild.Shell.Builtins
import ReleaseBuild.Shell.Interpreter
import ReleaseBuild.Host.Runner
import ReleaseBuild.Cli.Program
import ReleaseBuild.Main
import ReleaseBuild.Proofs.Run
import ReleaseBuild.Proofs.Protocol
import ReleaseBuild.Proofs.ToolCalls
import ReleaseBuild.Proofs.Validation
import ReleaseBuild.Proofs.Accepted
import ReleaseBuild.Proofs.Secrecy
import ReleaseBuild.Proofs.VersionText
import ReleaseBuild.Proofs.Failover
import ReleaseBuild.Proofs.Program
import ReleaseBuild.Proofs.Places
import ReleaseBuild.Proofs.TreeFrame
import ReleaseBuild.Proofs.Confined
import ReleaseBuild.Proofs.WriteConfinement
import ReleaseBuild.Proofs.TreeShape
import ReleaseBuild.Proofs.ParentPlace
import ReleaseBuild.Proofs.Ancestors
import ReleaseBuild.Proofs.Emptying
import ReleaseBuild.Proofs.GlobEscape
import ReleaseBuild.Proofs.GlobListing
import ReleaseBuild.Proofs.CategoryCopy
import ReleaseBuild.Proofs.ProblemListing
import ReleaseBuild.Proofs.SharedBuildRoot
import ReleaseBuild.Proofs.RealRuns
import ReleaseBuild.Proofs.ArchitectureStaging
import ReleaseBuild.Proofs.AbsolutePaths
import ReleaseBuild.Proofs.InstallerStaging
import ReleaseBuild.Proofs.InstallerPackaging
