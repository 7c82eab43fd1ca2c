import ReleaseBuild.Path
import ReleaseBuild.Architecture
import ReleaseBuild.Configuration
import ReleaseBuild.Machine
import ReleaseBuild.Files
import ReleaseBuild.Staging
import ReleaseBuild.Signing
/-!
# Packaging the installer

Packaging works from a finished build root. It fills the installer staging directory afresh:
the driver image of each architecture in its own subdirectory, the 32-bit executables, the
installer sources, the licence files, the certificate when signing, and `version.ini` with
the version. When signing, the staged drivers are signed and timestamped. The installer
compiler then runs inside the staging directory, and its output is published under
`installers/` as `Hone-<version>-<platform>.exe`, signed too when signing.
-/

namespace ReleaseBuild

namespace Packaging

open ReleaseM

/-- The installer sources, relative to the script directory. -/
def sourceDir : String := "installer"

/-- The files shipped next to the installer sources. -/
def licenseFiles : List String := ["License.txt", "Readme.html"]

/-- The installer script compiled inside the staging directory. -/
def script : String := "hone.iss"

/-- The version file included by the installer script. -/
def versionFile : String := "version.ini"

/-- The driver image signed for each architecture. -/
def driverImage : String := "hone.sys"

/-- Where the compiler leaves the installer, relative to the staging directory. -/
def compilerOutput : List String := ["Output", "Hone.exe"]

/-- The tool name of the installer compiler. -/
def compilerToolName : String := "Inno Setup compilation"

/-- The text of the version file. -/
def renderInstallerVersion (version : String) : String :=
  "#define MyAppVersion \"" ++ version ++ "\"\n"

/-- The file name of the published installer. -/
def installerFileName (version platformTag : String) : String :=
  "Hone-" ++ version ++ "-" ++ platformTag ++ ".exe"

/-- Fill the staging directory with everything the installer script expects. -/
def prepareStaging (c : BuildConfiguration) (staging : String) : ReleaseM Unit := do
  info .packaging ("Preparing installer files in " ++ staging)
  Files.resetDirectory staging
  Architecture.all.forM fun arch => do
    let dst := c.layout.installerStagingArch arch
    Files.ensureDir dst
    let _ ← Staging.copyDriverImages (c.layout.buildFiles arch) dst
  let _ ← Staging.copyExecutables (c.layout.buildFiles .x86) staging
  let _ ← Files.copyAll (Path.join c.scriptDir sourceDir) staging
  licenseFiles.forM fun name => do
    let _ ← Files.copyFile (Path.join c.scriptDir name) staging
  if let some s := c.signing then
    let _ ← Files.copyFile s.certificate staging
  Files.writeString (Path.join staging versionFile) (renderInstallerVersion c.version.text)

/-- Run the installer compiler in the staging directory and publish its output. -/
def compileInstaller (c : BuildConfiguration) (staging : String) : ReleaseM String := do
  let some compiler := c.installerCompiler | fail .missingInstallerCompiler
  info .packaging "Building installer"
  runChecked compilerToolName ((Invocation.ofProgram compiler).arg script |>.inDir staging)
  let installers := c.layout.installers
  Files.ensureDir installers
  let output := Path.joinAll staging compilerOutput
  let published := Path.join installers (installerFileName c.version.text c.platformTag)
  Files.copyTo output published
  info .packaging ("Installer written to " ++ published)
  pure published

/-- Build the installer from the build root; returns the published installers. -/
def package (c : BuildConfiguration) : ReleaseM (List String) := do
  let m ← get
  if !m.files.isDirectory? m.cwdLocation c.buildRoot then fail (.missingBuildRoot c.buildRoot)
  let staging := c.layout.installerStaging
  prepareStaging c staging
  if let some s := c.signing then
    Architecture.all.forM fun arch =>
      Signing.signAndTimestamp s c.timestampServers
        (Path.join (c.layout.installerStagingArch arch) driverImage)
  let installer ← compileInstaller c staging
  if let some s := c.signing then Signing.signAndTimestamp s c.timestampServers installer
  pure [installer]

end Packaging

end ReleaseBuild
