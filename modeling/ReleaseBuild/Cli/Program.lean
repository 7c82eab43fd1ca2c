import ReleaseBuild.Cli.Arguments
import ReleaseBuild.Logging
import ReleaseBuild.Settings.File
import ReleaseBuild.Release
import ReleaseBuild.Host.Runner
/-!
# The `hone-build` program

One run of the command:

1. The command line is read; a mistake ends the run with status 2, and `--help` or
   `--version` print their text and end it with status 0.
2. The log filter is `RUST_LOG` when that reads as a filter, and otherwise the program's own
   reports at `info` (`debug` with `--verbose`). Reports are coloured unless `NO_COLOR` is set
   to something.
3. The script directory is `--script-dir`, `HONE_SCRIPT_DIR`, or the directory of the
   executable. When none is given and the system cannot tell where the executable is, the run
   ends with status 1 and `error: ` with the reason on standard error. The settings are loaded
   from the script directory, falling back to the defaults with a warning.
4. The tools are looked for in the environment: the Program Files directories named by
   `ProgramFiles` and `ProgramFiles(x86)` when not empty, the driver kit named by `WDKPATH`,
   and `iscc` on the search path.
5. The configuration is validated and the release run with real processes. On success the
   program prints `Build completed successfully!` and the installers it published; on failure
   it prints the failure's diagnostic on standard error and ends with status 1. The diagnostic
   is coloured when standard error is a terminal and `NO_COLOR` is not set.

The command line, the settings file and the search path are read through `ArgumentReader`,
`SettingsFormat` and `ProgramSearch`, so that a run is described for every reading of them and
the readings this library implements are their instances.
-/

namespace ReleaseBuild

/-- The directory of the running executable, as the system reports it: the directory, or the
reason it cannot tell. -/
inductive ExecutableDir where
  | found (dir : String)
  | unknown (reason : String)
  deriving DecidableEq, Repr

instance : Coe String ExecutableDir := ⟨ExecutableDir.found⟩

/-- What the program is started with. -/
structure Launch where
  args : List String
  environment : List (String × String)
  /-- The working directory, absolute. -/
  cwd : String
  /-- The directory holding the executable. -/
  executableDir : ExecutableDir
  /-- The local time, for the version header. -/
  now : Timestamp
  deriving Repr

/-- How a run of the program ended: its exit status, what it printed, and the files. -/
structure Outcome where
  code : Nat
  stdout : String
  stderr : String
  files : FileTree
  deriving Repr

namespace Launch

/-- The value of an environment variable. -/
def getEnv? (l : Launch) (name : String) : Option String :=
  (l.environment.find? (·.1 == name)).map (·.2)

/-- The log filter: `RUST_LOG` when it reads as one, else the program's own. -/
def logFilter (l : Launch) (verbose : Bool) : LogFilter :=
  match l.getEnv? "RUST_LOG" with
  | some text => (LogFilter.parse? text).getD (LogFilter.standard verbose)
  | none => LogFilter.standard verbose

/-- Whether reports are coloured: unless `NO_COLOR` is set to something. -/
def colour (l : Launch) : Bool :=
  match l.getEnv? "NO_COLOR" with
  | some v => v.isEmpty
  | none => true

/-- Whether the failure's diagnostic is coloured: only on a terminal, and only when `NO_COLOR`
is not set at all, even to nothing. -/
def diagnosticColour (l : Launch) (stderrTerminal : Bool) : Bool :=
  (l.getEnv? "NO_COLOR").isNone && stderrTerminal

/-- The script directory of a command line: the one it names, else the executable's; with
neither, the reason the executable's directory is unknown. -/
def scriptDir? (l : Launch) (c : CommandLine) : Except String String :=
  match c.scriptDir, l.executableDir with
  | some dir, _ => .ok dir
  | none, .found dir => .ok dir
  | none, .unknown reason => .error reason

/-- The script directory a release reads. A release is run only once the directory is known;
without one the empty path stands in. -/
def scriptDirOf (l : Launch) (c : CommandLine) : String :=
  match l.scriptDir? c with
  | .ok dir => dir
  | .error _ => ""

end Launch

/-- Where a program is found on a search path, the way the `which` utility looks: the first
entry holding an executable file of that name. -/
def whichProgram (t : FileTree) (cwd : Location) (searchPath name : String) : Option String :=
  ((searchPath.splitOn ":").map fun dir => if dir.isEmpty then name else Path.join dir name).find?
    fun c =>
      match t.stat cwd c with
      | .ok (.file _ x) => x
      | _ => false

/-- A search for a program by name, as the program uses the which crate: the path of the program
in a file tree from a working directory, given the search path, when there is one. -/
class ProgramSearch where
  find : FileTree → Location → String → String → Option String

/-- The search this library implements: `whichProgram`. -/
instance : ProgramSearch := ⟨whichProgram⟩

/-- The tool environment of a launch. -/
def toolEnvironment [ProgramSearch] (l : Launch) (t : FileTree) : ToolEnvironment :=
  { programFiles := programFilesVariables.filterMap fun v => (l.getEnv? v).filter (!·.isEmpty)
    wdkPath := l.getEnv? wdkPathVariable
    installerCompilerOnPath :=
      ProgramSearch.find t (FileTree.locationOf l.cwd) ((l.getEnv? "PATH").getD "") "iscc" }

/-- The release arguments of a command line. -/
def CommandLine.releaseArgs (c : CommandLine) (scriptDir : String) : ReleaseArgs :=
  { stage := c.stage, output := c.output, version := c.version, debug := c.debug,
    noSign := c.noSign, certFile := c.certFile, certPass := c.certPass, scriptDir := scriptDir }

/-- The release of a command line: settings, validation and the run. Gives the installers,
or the failure. -/
def releaseOf [SettingsFormat] [ProgramSearch] (l : Launch) (c : CommandLine) : ReleaseM (List String) := do
  let scriptDir := l.scriptDirOf c
  let args := c.releaseArgs scriptDir
  let settings ← Settings.loadFrom scriptDir
  let m ← get
  match BuildConfiguration.validate args (toolEnvironment l m.files) settings m.files l.cwd with
  | .error e => ReleaseM.fail (.configuration e)
  | .ok config => Release.run config l.now

/-- Run the program on a file tree, knowing whether its standard error is a terminal. -/
def runProgramOn [ArgumentReader] [SettingsFormat] [ProgramSearch] (stderrTerminal : Bool)
    (l : Launch) (files : FileTree) : Outcome :=
  match ArgumentReader.read l.args (l.getEnv? scriptDirVariable) with
  | .error e => ⟨2, "", e.message, files⟩
  | .ok .showHelp => ⟨0, helpText (l.getEnv? scriptDirVariable), "", files⟩
  | .ok .showVersion => ⟨0, versionText, "", files⟩
  | .ok (.run c) =>
    match l.scriptDir? c with
    | .error reason => ⟨1, "", "error: " ++ reason ++ "\n", files⟩
    | .ok _ =>
      let machine : Machine := { files := files, cwd := l.cwd, environment := l.environment }
      let (result, m) := (releaseOf l c).run' Runner.host machine
      let (out, err) := renderConsole (l.logFilter c.verbose) l.colour m.console
      match result with
      | .ok installers =>
        let report := "Build completed successfully!\n" ++
          String.join (installers.map fun i => "  " ++ i ++ "\n")
        ⟨0, out ++ report, err, m.files⟩
      | .error f =>
        ⟨1, out, err ++ f.diagnostic.format (l.diagnosticColour stderrTerminal), m.files⟩

/-- Run the program on a file tree with its standard error captured, not a terminal. -/
def runProgram [ArgumentReader] [SettingsFormat] [ProgramSearch] (l : Launch) (files : FileTree) :
    Outcome :=
  runProgramOn false l files

end ReleaseBuild
