import ReleaseBuild.Path
import ReleaseBuild.Architecture
import ReleaseBuild.Artifact
import ReleaseBuild.Layout
import ReleaseBuild.Files
/-!
# Staging build output

After the external build of one architecture, its output directories hold the executables,
driver images and debug symbols of each project. Staging copies them into the build root:
executables and driver images to `build_files/<arch>`, debug symbols to
`debug_symbols/<arch>`, leaving out the compiler's own `vc90.pdb`. An output directory that is
missing, or a category with no files, copies nothing and is no failure.
-/

namespace ReleaseBuild

namespace Staging

open ReleaseM

/-- Copy the files of one category found directly in `srcDir` into `dstDir`. -/
def copyCategory [PatternSearch] (c : ArtifactCategory) (srcDir dstDir : String) :
    ReleaseM (List String) := do
  let m ← get
  if !m.files.isDirectory? m.cwdLocation srcDir then
    debug .staging ("no " ++ c.extension ++ " output in " ++ srcDir)
  Files.copyMatching (c.pattern srcDir) dstDir c.excludes

/-- Copy the executables of a directory. -/
def copyExecutables [PatternSearch] (srcDir dstDir : String) : ReleaseM (List String) :=
  copyCategory .executable srcDir dstDir

/-- Copy the driver images of a directory. -/
def copyDriverImages [PatternSearch] (srcDir dstDir : String) : ReleaseM (List String) :=
  copyCategory .driverImage srcDir dstDir

/-- Copy the debug symbols of a directory. -/
def copyDebugSymbols [PatternSearch] (srcDir dstDir : String) : ReleaseM (List String) :=
  copyCategory .debugSymbol srcDir dstDir

/-- Stage the build output of one architecture into the build root. -/
def stageArchitecture (scriptDir : String) (buildType : BuildType) (arch : Architecture)
    (layout : BuildLayout) : ReleaseM Unit := do
  let buildFiles := layout.buildFiles arch
  let debugSymbols := layout.debugSymbols arch
  Files.ensureDir buildFiles
  Files.ensureDir debugSymbols
  info .building ("Copying " ++ arch.label ++ " build files to " ++ buildFiles)
  Project.all.forM fun project => do
    let src := arch.outputDir scriptDir buildType project
    let _ ← copyExecutables src buildFiles
    let _ ← copyDriverImages src buildFiles
    let _ ← copyDebugSymbols src debugSymbols

end Staging

end ReleaseBuild
