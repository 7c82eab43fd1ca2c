import ReleaseBuild.Problems
import ReleaseBuild.Diagnostic
import ReleaseBuild.Command
import ReleaseBuild.Host.IoError
import ReleaseBuild.Glob.Pattern
/-!
# Release failures

A release stops at the first failure. A failure is one of a few causes: the arguments were
invalid, a tool could not be launched or finished unsuccessfully, every timestamp server
failed, a file operation failed, a file pattern could not be read, the build root is missing,
or no installer compiler was found.

Each cause has a one-line message, possibly an underlying failure it came from, and a
diagnostic: the message with the details that matter and a suggestion for what to do next.
-/

namespace ReleaseBuild

/-- Why a release stopped. -/
inductive Failure where
  /-- The arguments were invalid. -/
  | configuration (problems : ValidationError)
  /-- A tool could not be started. -/
  | toolLaunch (tool command : String) (source : IoError)
  /-- A tool finished with a status other than success. -/
  | toolFailed (tool command : String) (status : ToolStatus)
  /-- Timestamping failed with every server tried. -/
  | timestampExhausted (file : String) (servers : List String)
  /-- A file operation failed; `action` says what was attempted. -/
  | filesystem (action path : String) (source : IoError)
  /-- A file pattern could not be read. -/
  | pattern (text : String) (source : PatternError)
  /-- The build root of the version to package does not exist. -/
  | missingBuildRoot (path : String)
  /-- No installer compiler was found. -/
  | missingInstallerCompiler
  deriving DecidableEq, Repr

namespace Failure

/-- The one-line message. Invalid arguments show their full listing. -/
def message : Failure → String
  | configuration e => e.message
  | toolLaunch tool _ _ => "failed to launch " ++ tool
  | toolFailed tool _ status => tool ++ " failed with " ++ status.display
  | timestampExhausted _ _ => "Timestamping failed with all available servers"
  | filesystem action path _ => "failed to " ++ action ++ " " ++ path
  | pattern text _ => "invalid file pattern `" ++ text ++ "`"
  | missingBuildRoot path => "Build root " ++ path ++ " does not exist"
  | missingInstallerCompiler => "Inno Setup 5 compiler not found"

/-- The text of the underlying failure, if there is one. Invalid arguments have none: their
problems are the failure itself. -/
def source? : Failure → Option String
  | toolLaunch _ _ e => some e.message
  | filesystem _ _ e => some e.message
  | pattern _ e => some e.message
  | _ => none

/-- The problem text that asks for a certificate; when it is among the problems, the
diagnostic suggests turning signing off. -/
def certificateRequiredText : String := "Certificate file is required"

/-- What an operator is shown for the failure. -/
def diagnostic (f : Failure) : Diagnostic :=
  match f with
  | configuration e =>
    { message := "invalid arguments"
      context := e.sorted
      suggestions :=
        if e.mentions certificateRequiredText then [Diagnostic.disableSigningHint] else [] }
  | toolLaunch _ command source =>
    { message := f.message, context := ["command: " ++ command, source.message] }
  | toolFailed _ command _ =>
    { message := f.message, context := ["command: " ++ command]
      suggestions := [Diagnostic.toolOutputHint] }
  | timestampExhausted file servers =>
    { message := f.message, location := some file
      context := servers.map ("tried " ++ ·)
      suggestions := [Diagnostic.checkNetworkHint] }
  | filesystem _ _ source => { message := f.message, context := [source.message] }
  | pattern _ source => { message := f.message, context := [source.message] }
  | missingBuildRoot _ => { message := f.message, suggestions := [Diagnostic.rebuildHint] }
  | missingInstallerCompiler =>
    { message := f.message, suggestions := [Diagnostic.installCompilerHint] }

end Failure

end ReleaseBuild
