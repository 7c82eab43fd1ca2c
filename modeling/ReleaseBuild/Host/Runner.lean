import ReleaseBuild.Shell.Interpreter
/-!
# Running tools for real

The runner a release uses on a machine starts each tool as a child process of its own and
waits for it. Before it starts one it reports the command at the debug level. The child:

* runs in the command's directory, which must exist (`No such file or directory` otherwise);
* is found on the search path of the machine's environment unless its name has a `/`;
* gets the machine's environment and writes to the release's console;
* ends with an exit code, or without one when a signal stopped it.

A program that cannot be started at all is a launch failure.
-/

namespace ReleaseBuild

namespace Runner

/-- The working directory a command asks for, resolved on the machine. -/
def workingDirectory (m : Machine) (cwd : Option String) : Except IoError Location :=
  match cwd with
  | none => .ok m.cwdLocation
  | some d =>
    match m.files.lookup m.cwdLocation d with
    | .ok (loc, .directory) => .ok loc
    | .ok (_, .file ..) => .error .notADirectory
    | .error e => .error e

/-- The status of a tool from how its process ended. -/
def statusOf : Shell.Ending → ToolStatus
  | .exited code => ⟨some code⟩
  | .signaled _ => ⟨none⟩

/-- The runner that starts real processes on the machine. -/
def host : Runner where
  run cmd m :=
    let m := m.emit (.log ⟨.debug, .process, "running `" ++ cmd.display ++ "`"⟩)
    match workingDirectory m cmd.cwd with
    | .error e => (.error e, m)
    | .ok loc =>
      let world : Shell.World := { files := m.files, console := m.console.toArray }
      let (result, world) := Shell.startProgram world m.environment loc cmd.program cmd.argValues
      let m := { m with files := world.files, console := world.console.toList }
      (result.map statusOf, m)

end Runner

end ReleaseBuild
