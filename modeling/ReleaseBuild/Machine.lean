import ReleaseBuild.Text
import ReleaseBuild.Command
import ReleaseBuild.Failure
import ReleaseBuild.Host.FileTree
/-!
# The machine a release runs on

A release reads and writes files, reports its progress and runs external tools. Its effects
are kept as one value, the machine: the file tree, the working directory, the environment
that tools are started with, everything written to the console in order, and the tools'
calls as recorded by a scripted toolbox.

Progress reports are log events: a level, the part of the release that reports, and a
message. Whether an event is shown is decided when the console is printed, by a filter on
level and reporter.

External tools are run by a runner, which turns a command into an exit status or a launch
failure and may change the machine while the tool runs. Two runners exist: a scripted one,
whose rules say how each command ends, and one that runs the programs of the file tree.
-/

namespace ReleaseBuild

/-- How much a log event matters, most important first. -/
inductive Level where
  | error
  | warn
  | info
  | debug
  | trace
  deriving DecidableEq, Repr

namespace Level

/-- Larger for more detailed levels. -/
def rank : Level → Nat
  | error => 1
  | warn => 2
  | info => 3
  | debug => 4
  | trace => 5

/-- The level's name as printed, in capitals. -/
def label : Level → String
  | error => "ERROR"
  | warn => "WARN"
  | info => "INFO"
  | debug => "DEBUG"
  | trace => "TRACE"

end Level

/-- The part of the release that reports an event. -/
inductive Reporter where
  | release
  | stamp
  | building
  | staging
  | files
  | process
  | signing
  | packaging
  | settings
  deriving DecidableEq, Repr

namespace Reporter

/-- The name a log filter selects the reporter by. -/
def target : Reporter → String
  | release => "hone_build::ops::release"
  | stamp => "hone_build::ops::stamp"
  | building => "hone_build::ops::arch_build"
  | staging => "hone_build::ops::stage"
  | files => "hone_build::util::fs"
  | process => "hone_build::util::process"
  | signing => "hone_build::ops::sign"
  | packaging => "hone_build::ops::package"
  | settings => "hone_build::util::config"

end Reporter

/-- A progress report. -/
structure LogEvent where
  level : Level
  reporter : Reporter
  message : String
  deriving DecidableEq, Repr

/-- Something written to the console: a log event, or text a tool wrote to its standard
output or standard error. -/
inductive Emission where
  | log (e : LogEvent)
  | out (text : String)
  | err (text : String)
  deriving DecidableEq, Repr

/-- A command as a scripted toolbox records it: the shown command and its directory. -/
structure ToolCall where
  command : String
  cwd : Option String
  deriving DecidableEq, Repr

/-- How a scripted command ends. -/
inductive ScriptedEnd where
  | exit (code : Option Int)
  | launchFailure (message : String)
  deriving DecidableEq, Repr

/-- How a rule's pattern is compared with a shown command. -/
inductive MatchKind where
  | contains
  | prefixOf
  | exact
  deriving DecidableEq, Repr

/-- A rule of a scripted toolbox: commands it applies to, how often it may still fire (`none`
for always), files it creates before answering, and how the command ends. -/
structure ScriptRule where
  pattern : String := ""
  kind : MatchKind := .contains
  uses : Option Nat := none
  creates : List (String × String) := []
  ending : ScriptedEnd := .exit (some 0)
  deriving DecidableEq, Repr

/-- A scripted toolbox: rules tried in order, and how a command ends that no rule takes. -/
structure ToolScript where
  rules : List ScriptRule := []
  fallback : ScriptedEnd := .exit (some 0)
  deriving DecidableEq, Repr

namespace ScriptRule

/-- Whether the rule's pattern fits a shown command. -/
def fits (r : ScriptRule) (command : String) : Bool :=
  match r.kind with
  | .contains => Text.contains command r.pattern
  | .prefixOf => r.pattern.toList.isPrefixOf command.toList
  | .exact => command == r.pattern

/-- Whether the rule may still fire. -/
def available (r : ScriptRule) : Bool :=
  match r.uses with
  | some 0 => false
  | _ => true

/-- The rule after it fired once. -/
def spend (r : ScriptRule) : ScriptRule := { r with uses := r.uses.map (· - 1) }

end ScriptRule

namespace ToolScript

/-- The rule that answers a command, with the script after it fired: the first rule that fits
and may still fire. -/
def select (s : ToolScript) (command : String) : Option (ScriptRule × ToolScript) :=
  match s.rules.findIdx? (fun r => r.available && r.fits command) with
  | some i =>
    match s.rules[i]? with
    | some r => some (r, { s with rules := s.rules.set i r.spend })
    | none => none
  | none => none

end ToolScript

/-- Everything a release changes: files, console, recorded calls and the scripted toolbox. -/
structure Machine where
  files : FileTree := {}
  cwd : String := "/"
  environment : List (String × String) := []
  console : List Emission := []
  calls : List ToolCall := []
  script : ToolScript := {}
  deriving Repr

namespace Machine

/-- The working directory as a location. -/
def cwdLocation (m : Machine) : Location := FileTree.locationOf m.cwd

/-- Append to the console. -/
def emit (m : Machine) (e : Emission) : Machine := { m with console := m.console ++ [e] }

/-- The value of an environment variable. -/
def getEnv? (m : Machine) (name : String) : Option String :=
  (m.environment.find? (·.1 == name)).map (·.2)

end Machine

/-- Runs external tools: a command and the machine give the status, or the launch failure,
and the machine after the tool ran. -/
structure Runner where
  run : Invocation → Machine → Except IoError ToolStatus × Machine

/-- A computation of the release: it may fail, and it changes the machine whether it fails
or not. -/
abbrev ReleaseM := ReaderT Runner (ExceptT Failure (StateM Machine))

namespace ReleaseM

/-- Report progress. -/
def log (level : Level) (reporter : Reporter) (message : String) : ReleaseM Unit :=
  modify fun m => m.emit (.log ⟨level, reporter, message⟩)

/-- Report progress at the info level. -/
def info (reporter : Reporter) (message : String) : ReleaseM Unit := log .info reporter message

/-- Report progress at the debug level. -/
def debug (reporter : Reporter) (message : String) : ReleaseM Unit := log .debug reporter message

/-- Report a warning. -/
def warn (reporter : Reporter) (message : String) : ReleaseM Unit := log .warn reporter message

/-- Fail the release. -/
def fail {α : Type} (f : Failure) : ReleaseM α := throw f

/-- Run a step on the file tree, failing with a filesystem failure on error. -/
def onFiles {α : Type} (action path : String)
    (step : FileTree → Location → Except IoError (α × FileTree)) : ReleaseM α := do
  let m ← get
  match step m.files m.cwdLocation with
  | .ok (a, t) => set { m with files := t }; pure a
  | .error e => fail (.filesystem action path e)

/-- Run a step on the file tree that keeps what it changed when it fails, as a sequence of
system calls does that stops at its first failure; the failure is a filesystem failure. -/
def onFilesPartial {α : Type} (action path : String)
    (step : FileTree → Location → Except IoError α × FileTree) : ReleaseM α := do
  let m ← get
  let (result, t) := step m.files m.cwdLocation
  set { m with files := t }
  match result with
  | .ok a => pure a
  | .error e => fail (.filesystem action path e)

/-- Run a tool and return its status; only a tool that cannot be launched fails. -/
def runTool (tool : String) (cmd : Invocation) : ReleaseM ToolStatus := do
  let r ← read
  let m ← get
  let (result, m') := r.run cmd m
  set m'
  match result with
  | .ok status => pure status
  | .error e => fail (.toolLaunch tool cmd.display e)

/-- Run a tool and require success. -/
def runChecked (tool : String) (cmd : Invocation) : ReleaseM Unit := do
  let status ← runTool tool cmd
  if !status.success then fail (.toolFailed tool cmd.display status)

/-- Run a computation on a machine. -/
def run' {α : Type} (x : ReleaseM α) (r : Runner) (m : Machine) : Except Failure α × Machine :=
  (x.run r).run m

end ReleaseM

namespace Runner

/-- Write the files a scripted rule creates, with missing directories; failures are ignored. -/
def createFiles (m : Machine) (files : List (String × String)) : Machine :=
  files.foldl (fun m (path, content) =>
    let cwd := m.cwdLocation
    let t := match Path.parent path with
      | some p => (m.files.createDirAll cwd p).2
      | none => m.files
    match t.writeFile cwd path content with
    | .ok t' => { m with files := t' }
    | .error _ => { m with files := t }) m

/-- The end of a scripted command as a runner result. -/
def scriptedResult : ScriptedEnd → Except IoError ToolStatus
  | .exit code => .ok ⟨code⟩
  | .launchFailure message => .error (.custom .notFound message)

/-- The scripted runner: records the call, lets the first fitting rule with uses left answer
after creating its files, and otherwise answers with the fallback. -/
def scripted : Runner where
  run cmd m :=
    let command := cmd.display
    let m := { m with calls := m.calls ++ [ToolCall.mk command cmd.cwd] }
    match m.script.select command with
    | some (rule, script) =>
      let m := createFiles { m with script := script } rule.creates
      (scriptedResult rule.ending, m)
    | none => (scriptedResult m.script.fallback, m)

end Runner

end ReleaseBuild
