import ReleaseBuild.Path
import ReleaseBuild.Architecture
import ReleaseBuild.Artifact
/-!
# Build root layout

Everything a release produces lives under one build root:

```
<root>/build_files/<arch>/      executables and driver images
<root>/debug_symbols/<arch>/    debug symbols
<root>/installers/              published installers
<root>/temp/installer/          installer staging area, one subdirectory per architecture
```
-/

namespace ReleaseBuild

/-- The directories of a build root. -/
structure BuildLayout where
  root : String
  deriving DecidableEq, Repr

namespace BuildLayout

/-- Where a category's files for one architecture are staged. -/
def artifactDir (l : BuildLayout) (c : ArtifactCategory) (arch : Architecture) : String :=
  Path.joinAll l.root [c.subdir, arch.tag]

/-- Executables and driver images of one architecture. -/
def buildFiles (l : BuildLayout) (arch : Architecture) : String :=
  l.artifactDir .executable arch

/-- Debug symbols of one architecture. -/
def debugSymbols (l : BuildLayout) (arch : Architecture) : String :=
  l.artifactDir .debugSymbol arch

/-- Published installers. -/
def installers (l : BuildLayout) : String := Path.join l.root "installers"

/-- The installer staging area. -/
def installerStaging (l : BuildLayout) : String := Path.joinAll l.root ["temp", "installer"]

/-- The staging subdirectory of one architecture. -/
def installerStagingArch (l : BuildLayout) (arch : Architecture) : String :=
  Path.join l.installerStaging arch.tag

end BuildLayout

end ReleaseBuild
