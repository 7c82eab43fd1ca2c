import ReleaseBuild.Path
/-!
# Architectures, build types and sub-projects

The product is built for two processor architectures, always in the order 32-bit then 64-bit,
as a free (release) or checked (debug) build, from two sub-projects: the sensor driver and the
utility. The external build leaves each sub-project's output for one architecture in
`<script dir>/<project>/obj<fre|chk>_win7_<obj tag>/<cpu dir>`.
-/

namespace ReleaseBuild

/-- A free build is the release build; a checked build carries debug checks. -/
inductive BuildType where
  | checked
  | free
  deriving DecidableEq, Repr

namespace BuildType

/-- The checked build when debugging is asked for, the free build otherwise. -/
def ofDebug (debug : Bool) : BuildType := if debug then checked else free

/-- The tag in object directory names. -/
def tag : BuildType → String
  | checked => "chk"
  | free => "fre"

/-- The profile name in build root names. -/
def profile : BuildType → String
  | checked => "debug"
  | free => "release"

end BuildType

/-- The two sub-projects whose output is collected. -/
inductive Project where
  /-- The sensor driver. -/
  | sensor
  /-- The user-space utility. -/
  | utility
  deriving DecidableEq, Repr

namespace Project

/-- Both sub-projects, sensor first. -/
def all : List Project := [sensor, utility]

/-- The directory of the sub-project under the script directory. -/
def dirName : Project → String
  | sensor => "hone"
  | utility => "honeutil"

end Project

/-- A processor architecture the product is built for. -/
inductive Architecture where
  | x86
  | x64
  deriving DecidableEq, Repr

namespace Architecture

/-- Both architectures in build order. -/
def all : List Architecture := [x86, x64]

/-- The label in progress messages. -/
def label : Architecture → String
  | x86 => "32-bit"
  | x64 => "64-bit"

/-- The tag in build root directories and helper arguments. -/
def tag : Architecture → String
  | x86 => "x86"
  | x64 => "x64"

/-- The tag in object directory names. -/
def objTag : Architecture → String
  | x86 => "x86"
  | x64 => "amd64"

/-- The processor directory inside an object directory. -/
def cpuDir : Architecture → String
  | x86 => "i386"
  | x64 => "amd64"

/-- Where the external build leaves a sub-project's output for this architecture. -/
def outputDir (arch : Architecture) (scriptDir : String) (buildType : BuildType)
    (project : Project) : String :=
  Path.joinAll scriptDir
    [project.dirName, "obj" ++ buildType.tag ++ "_win7_" ++ arch.objTag, arch.cpuDir]

/-- Read an architecture tag. -/
def ofTag? : String → Option Architecture
  | "x86" => some x86
  | "x64" => some x64
  | _ => none

end Architecture

end ReleaseBuild
