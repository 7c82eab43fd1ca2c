import ReleaseBuild.Header
import ReleaseBuild.Configuration
import ReleaseBuild.Machine
import ReleaseBuild.Files
import ReleaseBuild.Building
import ReleaseBuild.Packaging
/-!
# A release run

A run does the stages it was asked for. The build stage ensures the build root, writes the
version header into the script directory, then builds and stages every architecture. The
package stage builds the installer from the build root. The outcome lists the published
installers.
-/

namespace ReleaseBuild

namespace Release

open ReleaseM

/-- Write the version header into the script directory; returns its path. -/
def writeVersionHeader (scriptDir : String) (v : Version) (now : Timestamp) : ReleaseM String := do
  let path := Path.join scriptDir Header.fileName
  info .stamp ("Creating version file " ++ path)
  Files.writeString path (Header.render v now)
  pure path

/-- Run the build stage. -/
def build (c : BuildConfiguration) (now : Timestamp) : ReleaseM Unit := do
  info .release ("Build root: " ++ c.buildRoot)
  Files.ensureDir c.buildRoot
  let _ ← writeVersionHeader c.scriptDir c.version now
  Building.buildAll c

/-- Run the selected stages; returns the published installers. -/
def run (c : BuildConfiguration) (now : Timestamp) : ReleaseM (List String) := do
  if c.stages.build then build c now
  if c.stages.package then Packaging.package c else pure []

end Release

end ReleaseBuild
