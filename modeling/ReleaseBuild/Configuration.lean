import ReleaseBuild.Path
import ReleaseBuild.Version
import ReleaseBuild.Stage
import ReleaseBuild.Architecture
import ReleaseBuild.Layout
import ReleaseBuild.Problems
import ReleaseBuild.Settings
import ReleaseBuild.Environment
/-!
# Run configuration

A run starts from the arguments as typed. Validation checks every rule and reports all
violations together, in this order: the stage specification; when packaging, the installer
compiler and, unless signing is off, the driver kit, the certificate and the timestamp servers;
the version; the script directory; the output directory. Nothing runs unless all pass.

A valid run has its directories made absolute against the working directory, and a build
root `hone_<version>_<release|debug>` under the output directory, which defaults to the script
directory. The certificate path is made absolute only once everything else has passed.
-/

namespace ReleaseBuild

/-- The certificate password used when none is given. -/
def defaultCertificatePassword : String := "changeit"

/-- The arguments of a run, as typed. -/
structure ReleaseArgs where
  stage : String := "a"
  output : Option String := none
  version : Option String := none
  debug : Bool := false
  noSign : Bool := false
  certFile : Option String := none
  certPass : String := defaultCertificatePassword
  scriptDir : String := "."
  deriving DecidableEq, Repr

/-- Everything needed to sign a file. -/
structure SigningConfig where
  signTool : String
  certificate : String
  password : String
  deriving DecidableEq, Repr

/-- A rule that the arguments of a run break. -/
inductive ConfigProblem where
  | stage (spec : String)
  | compilerMissing
  | kitUndefined
  | certificateRequired
  | noTimestampServers
  | versionRequired
  | version (problem : VersionProblem)
  | badDirectory (what path reason : String)
  deriving DecidableEq, Repr

namespace ConfigProblem

/-- How a problem is reported. -/
def message : ConfigProblem → String
  | stage spec => StageSet.invalidMessage spec
  | compilerMissing =>
    "Inno Setup 5 compiler not found.  Ensure Inno Setup 5 is installed to the standard " ++
      "Program Files location."
  | kitUndefined => wdkPathVariable ++ " environment variable is undefined"
  | certificateRequired =>
    "Certificate file is required when building installer unless signing is disabled"
  | noTimestampServers => "No timestamp servers configured for signing"
  | versionRequired => "Version required"
  | version p => p.message
  | badDirectory what path reason =>
    "Invalid " ++ what ++ " directory \"" ++ path ++ "\": " ++ reason

end ConfigProblem

/-- A validated run. -/
structure BuildConfiguration where
  version : Version
  stages : StageSet
  debug : Bool
  signing : Option SigningConfig
  outputRoot : String
  layout : BuildLayout
  scriptDir : String
  installerCompiler : Option String
  settings : Settings
  deriving DecidableEq, Repr

namespace BuildConfiguration

/-- Checked binaries for a debug run, free ones otherwise. -/
def buildType (c : BuildConfiguration) : BuildType := BuildType.ofDebug c.debug

/-- The build root. -/
def buildRoot (c : BuildConfiguration) : String := c.layout.root

/-- The build helper, run once per architecture. -/
def buildHelper (c : BuildConfiguration) : String := Path.join c.scriptDir c.settings.build.helper

/-- The platform named in the installer's file name. -/
def platformTag (c : BuildConfiguration) : String := c.settings.installer.platformTag

/-- The timestamp servers, in the order they are tried. -/
def timestampServers (c : BuildConfiguration) : List String :=
  c.settings.signing.timestampServers

/-- The name of the build root directory of a version and build type. -/
def buildRootName (v : Version) (t : BuildType) : String :=
  "hone_" ++ v.text ++ "_" ++ t.profile

/-- A path made absolute against `cwd`, or the path as given and the problem. -/
def absolutize (cwd what path : String) : String × List ConfigProblem :=
  match Path.absolute cwd path with
  | .ok p => (p, [])
  | .error reason => (path, [.badDirectory what path reason])

/-- The problems of the stage specification. -/
def stageProblems (spec : String) : List ConfigProblem :=
  match StageSet.parse spec with
  | .ok _ => []
  | .error _ => [.stage spec]

/-- The problems of packaging: the compiler and, unless signing is off, the signing needs. -/
def packagingProblems (args : ReleaseArgs) (settings : Settings) (compiler signTool : Option String) :
    List ConfigProblem :=
  (if compiler.isNone then [.compilerMissing] else []) ++
  (if args.noSign then []
   else
    (if signTool.isNone then [.kitUndefined] else []) ++
    (if args.certFile.isNone then [.certificateRequired] else []) ++
    (if settings.signing.timestampServers.isEmpty then [.noTimestampServers] else []))

/-- The version, or its problems. -/
def versionOf (text : Option String) : Option Version × List ConfigProblem :=
  match text with
  | none => (none, [.versionRequired])
  | some t =>
    match Version.parse t with
    | .ok v => (some v, [])
    | .error ps => (none, ps.map .version)

/-- The collected problems as a validation failure. -/
def failure (ps : List ConfigProblem) : ValidationError := ⟨ps.map ConfigProblem.message⟩

/-- Validate the arguments of a run against the tool environment and settings; `cwd` is the
absolute working directory that relative paths are seen from. -/
def validate (args : ReleaseArgs) (env : ToolEnvironment) (settings : Settings)
    (tree : FileTree) (cwd : String) : Except ValidationError BuildConfiguration :=
  let stages := StageSet.ofTokens args.stage
  let compiler :=
    if stages.package then env.findInstallerCompiler tree (FileTree.locationOf cwd) else none
  let signTool := if stages.package && !args.noSign then env.signTool else none
  let packaging := if stages.package then packagingProblems args settings compiler signTool else []
  let (version?, versionProblems) := versionOf args.version
  let (scriptDir, scriptProblems) := absolutize cwd "script" args.scriptDir
  let (outputRoot, outputProblems) :=
    match args.output with
    | some dir => absolutize cwd "output" dir
    | none => (scriptDir, [])
  let problems :=
    stageProblems args.stage ++ packaging ++ versionProblems ++ scriptProblems ++ outputProblems
  match version?, problems with
  | some v, [] =>
    let layout : BuildLayout :=
      ⟨Path.join outputRoot (buildRootName v (BuildType.ofDebug args.debug))⟩
    let (signing, certProblems) :=
      match signTool, args.certFile with
      | some tool, some cert =>
        let (c, ps) := absolutize cwd "certificate" cert
        (some (SigningConfig.mk tool c args.certPass), ps)
      | _, _ => (none, [])
    if certProblems.isEmpty then
      .ok ⟨v, stages, args.debug, signing, outputRoot, layout, scriptDir, compiler, settings⟩
    else .error (failure certProblems)
  | _, _ => .error (failure problems)

end BuildConfiguration

end ReleaseBuild
