import ReleaseBuild.Architecture
import ReleaseBuild.Configuration
import ReleaseBuild.Machine
import ReleaseBuild.Staging
/-!
# Building

The binaries are built by the build helper of the script directory, once per architecture,
32-bit first. The helper is given the script directory, the build type tag and the
architecture tag; it must succeed. After each architecture is built its output is staged into
the build root.
-/

namespace ReleaseBuild

namespace Building

open ReleaseM

/-- The tool name of the build helper. -/
def helperToolName : String := "Build helper"

/-- The command that builds one architecture. -/
def helperCommand (c : BuildConfiguration) (arch : Architecture) : Invocation :=
  (Invocation.ofProgram c.buildHelper).withArgs [c.scriptDir, c.buildType.tag, arch.tag]

/-- Build one architecture. -/
def buildArchitecture (c : BuildConfiguration) (arch : Architecture) : ReleaseM Unit := do
  info .building ("Building " ++ arch.label ++ " Hone version " ++ c.version.text)
  runChecked helperToolName (helperCommand c arch)

/-- Stage one architecture's output into the build root. -/
def stageArchitecture (c : BuildConfiguration) (arch : Architecture) : ReleaseM Unit :=
  Staging.stageArchitecture c.scriptDir c.buildType arch c.layout

/-- Build and stage every architecture in turn. -/
def buildAll (c : BuildConfiguration) : ReleaseM Unit :=
  Architecture.all.forM fun arch => do
    buildArchitecture c arch
    stageArchitecture c arch

end Building

end ReleaseBuild
