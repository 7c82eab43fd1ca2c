import ReleaseBuild.Path
import ReleaseBuild.Host.FileTree
/-!
# The tool environment

Packaging needs two external tools. The installer compiler, Inno Setup 5, is looked for as
`Inno Setup 5/iscc.exe` under each Program Files directory in turn, the first that holds it as
a file winning; failing that, a compiler found on the search path is used. The signing tool is
`bin/x86/signtool` under the driver kit named by `WDKPATH`; whether it exists is only found out
when it is run.
-/

namespace ReleaseBuild

/-- The environment variable naming the driver kit. -/
def wdkPathVariable : String := "WDKPATH"

/-- The environment variables naming Program Files directories, in search order. -/
def programFilesVariables : List String := ["ProgramFiles", "ProgramFiles(x86)"]

/-- Where external tools may be found. -/
structure ToolEnvironment where
  programFiles : List String := []
  wdkPath : Option String := none
  installerCompilerOnPath : Option String := none
  deriving DecidableEq, Repr

namespace ToolEnvironment

/-- The installer compiler's place under a Program Files directory. -/
def compilerUnder (programFiles : String) : String :=
  Path.joinAll programFiles ["Inno Setup 5", "iscc.exe"]

/-- The installer compiler: the first Program Files directory holding it as a file, else the
one on the search path. Relative directories are seen from `cwd`. -/
def findInstallerCompiler (env : ToolEnvironment) (tree : FileTree) (cwd : Location) :
    Option String :=
  match (env.programFiles.map compilerUnder).find? (tree.isFile? cwd) with
  | some path => some path
  | none => env.installerCompilerOnPath

/-- The signing tool of the driver kit, when a kit is named. -/
def signTool (env : ToolEnvironment) : Option String :=
  env.wdkPath.map fun wdk => Path.joinAll wdk ["bin", "x86", "signtool"]

end ToolEnvironment

end ReleaseBuild
