import Mathlib
import ReleaseBuild.Proofs.Run
import ReleaseBuild.Proofs.Validation
import ReleaseBuild.Cli.Program
/-!
# What the program does with a command line

Once the command line reads as a request to run a release, the program settles the script
directory, loads the settings next to the build scripts, validates the arguments and runs the
release. `runProgramOn_behaves` says what the outcome is then, for every command line,
environment and file tree:

* with no script directory given and none known for the executable, the program stops with
  status 1 and `error: ` and the reason on standard error, and changes nothing;
* the settings are those of `<script dir>/hone-release.toml` when it reads as settings, and the
  defaults when it is missing, unreadable or malformed, and loading them writes nothing;
* the exit status is 0 exactly when validation and the release both succeed, and standard output
  then ends with `Build completed successfully!` and one indented line per published installer;
* a failure ends the program with status 1 and the failure's diagnostic at the end of standard
  error, coloured exactly when `NO_COLOR` is not set and standard error is a terminal;
* when validation fails, no tool is started and the files are left exactly as they were.

The last four hold once the script directory is known (`behaves_of_located`).

Loading the settings is a computation that only reads files and logs (`KeepsFiles`, with `Quiet`
for its calls); `run'_releaseOf` then cuts the release of a command line at validation.

The command line, the settings file and the search path are read through `ArgumentReader`,
`SettingsFormat` and `ProgramSearch`, and what is proved here holds for every reading of them. Only
`Launch.compiler_isFile`, that the installer compiler of a validated configuration is a file, rests
on a property of one: the which crate finds executable files alone (`ProgramSearch.Executable`).
-/

set_option autoImplicit false

namespace ReleaseBuild

variable {α β : Type}

open ReleaseM

/-! ## Computations that write no file -/

/-- A computation keeps the files when, under every runner and from every machine, it leaves the
file tree as it was. -/
def KeepsFiles (x : ReleaseM α) : Prop :=
  ∀ r m, (x.run' r m).2.files = m.files

namespace KeepsFiles

theorem pure (a : α) : KeepsFiles (Pure.pure a : ReleaseM α) := fun _ _ => rfl

theorem get : KeepsFiles (MonadState.get : ReleaseM Machine) := fun _ _ => rfl

theorem log (level : Level) (reporter : Reporter) (message : String) :
    KeepsFiles (ReleaseM.log level reporter message) := fun _ _ => rfl

theorem bind {x : ReleaseM α} {f : α → ReleaseM β} (hx : KeepsFiles x)
    (hf : ∀ a, KeepsFiles (f a)) : KeepsFiles (x >>= f) := by
  intro r m
  have hfiles := hx r m
  rw [run'_bind]
  rcases h : x.run' r m with ⟨_ | a, m'⟩ <;> rw [h] at hfiles
  · exact hfiles
  · exact (hf a r m').trans hfiles

end KeepsFiles

/-! ## Loading the settings -/

namespace Settings

/-- The settings the file of a script directory gives: its own when it reads as settings, and the
defaults otherwise. -/
def fromFile [SettingsFormat] (t : FileTree) (cwd : Location) (scriptDir : String) : Settings :=
  (load t cwd (filePath scriptDir)).toOption.getD {}

/-- A path that names nothing cannot be loaded. -/
theorem load_isError_of_exists_false [SettingsFormat] {t : FileTree} {cwd : Location} {path : String}
    (h : t.exists? cwd path = false) : (load t cwd path).toOption = none := by
  cases hl : t.lookup cwd path with
  | error e => simp [load, FileTree.readFile, hl, Except.toOption]
  | ok found => simp [FileTree.exists?, FileTree.stat, hl, Except.map] at h

/-- **Loading with fallback.** The settings loaded are the file's own when it reads as settings,
and the defaults when it is missing or cannot be used. -/
theorem run'_loadOrDefault_fst [SettingsFormat] (path : String) (r : Runner) (m : Machine) :
    ((loadOrDefault path).run' r m).1 = .ok ((load m.files m.cwdLocation path).toOption.getD {}) := by
  simp only [loadOrDefault, run'_bind, run'_get]
  split
  · -- a file that exists is used when it loads, and reported otherwise
    rcases load m.files m.cwdLocation path with e | s
    · simp only [ReleaseM.warn, run'_bind, run'_log, run'_pure, Except.toOption, Option.getD_none]
    · rfl
  · rename_i hexists
    simp [load_isError_of_exists_false (by simpa using hexists)]

theorem keepsFiles_loadOrDefault [SettingsFormat] (path : String) : KeepsFiles (loadOrDefault path) := by
  unfold loadOrDefault
  refine KeepsFiles.get.bind fun m => ?_
  split
  · split
    · exact KeepsFiles.pure _
    · exact (KeepsFiles.log _ _ _).bind fun _ => KeepsFiles.pure _
  · exact KeepsFiles.pure _

theorem quiet_loadOrDefault [SettingsFormat] (path : String) : Quiet (loadOrDefault path) := by
  unfold loadOrDefault
  refine Quiet.get.bind fun m => ?_
  split
  · split
    · exact Quiet.pure _
    · exact (Quiet.log _ _ _).bind fun _ => Quiet.pure _
  · exact Quiet.pure _

end Settings

/-! ## The release of a command line -/

namespace Launch

/-- The machine a launch starts on: the file tree, the working directory and the environment. -/
def machine (l : Launch) (files : FileTree) : Machine :=
  { files := files, cwd := l.cwd, environment := l.environment }

/-- The machine once the settings of the script directory are loaded. -/
def loaded [SettingsFormat] (l : Launch) (c : CommandLine) (files : FileTree) : Machine :=
  ((Settings.loadFrom (l.scriptDirOf c)).run' Runner.host (l.machine files)).2

/-- The configuration a command line validates to, with the settings of its script directory
and the tools the environment finds in the file tree. -/
def validated [SettingsFormat] [ProgramSearch] (l : Launch) (c : CommandLine) (files : FileTree) :
    Except ValidationError BuildConfiguration :=
  BuildConfiguration.validate (c.releaseArgs (l.scriptDirOf c)) (toolEnvironment l files)
    (Settings.fromFile files (FileTree.locationOf l.cwd) (l.scriptDirOf c)) files l.cwd

end Launch

/-- **Validation decides.** The release of a command line loads the settings, then validates the
arguments against the files as they were; a refused configuration ends it with that failure on the
machine the loading left, and an accepted one is run from there. -/
theorem run'_releaseOf [SettingsFormat] [ProgramSearch] (l : Launch) (c : CommandLine) (r : Runner) (m : Machine) :
    (releaseOf l c).run' r m =
      match BuildConfiguration.validate (c.releaseArgs (l.scriptDirOf c)) (toolEnvironment l m.files)
          (Settings.fromFile m.files m.cwdLocation (l.scriptDirOf c)) m.files l.cwd with
      | .error e => (.error (.configuration e), ((Settings.loadFrom (l.scriptDirOf c)).run' r m).2)
      | .ok config =>
        (Release.run config l.now).run' r ((Settings.loadFrom (l.scriptDirOf c)).run' r m).2 := by
  have hsettings := Settings.run'_loadOrDefault_fst (Settings.filePath (l.scriptDirOf c)) r m
  have hfiles := Settings.keepsFiles_loadOrDefault (Settings.filePath (l.scriptDirOf c)) r m
  simp only [releaseOf, run'_bind, Settings.loadFrom]
  generalize (Settings.loadOrDefault (Settings.filePath (l.scriptDirOf c))).run' r m
    = loaded at hsettings hfiles ⊢
  obtain ⟨res, m'⟩ := loaded
  -- validation reads the files the loading left, which are the files it started with
  dsimp only at hsettings hfiles
  subst hsettings
  simp only [run'_get, hfiles, Settings.fromFile]
  rcases BuildConfiguration.validate (c.releaseArgs (l.scriptDirOf c))
    (toolEnvironment l m.files)
    ((Settings.load m.files m.cwdLocation (Settings.filePath (l.scriptDirOf c))).toOption.getD {})
    m.files l.cwd with e | config
  · rfl
  · rfl

/-- The outcome of a run request: the release's result decides the status and what is printed
after the console, and the files are those the release left. -/
theorem runProgramOn_of_run [ArgumentReader] [SettingsFormat] [ProgramSearch] {l : Launch}
    {c : CommandLine} (hc : ArgumentReader.read l.args (l.getEnv? scriptDirVariable) = .ok (.run c)) {dir : String}
    (hdir : l.scriptDir? c = .ok dir) (terminal : Bool) (files : FileTree) :
    runProgramOn terminal l files =
      match (releaseOf l c).run' Runner.host (l.machine files) with
      | (.ok installers, m) =>
        ⟨0, (renderConsole (l.logFilter c.verbose) l.colour m.console).1 ++
          ("Build completed successfully!\n" ++ String.join (installers.map fun i => "  " ++ i ++ "\n")),
          (renderConsole (l.logFilter c.verbose) l.colour m.console).2, m.files⟩
      | (.error f, m) =>
        ⟨1, (renderConsole (l.logFilter c.verbose) l.colour m.console).1,
          (renderConsole (l.logFilter c.verbose) l.colour m.console).2 ++
            f.diagnostic.format (l.diagnosticColour terminal), m.files⟩ := by
  simp only [runProgramOn, hc, hdir, Launch.machine]
  rcases (releaseOf l c).run' Runner.host { files := files, cwd := l.cwd, environment := l.environment }
    with ⟨_ | installers, m⟩ <;> rfl

/-- The release of a command line from the machine of its launch: validated against the files
given, then run from the machine the loading of the settings left. -/
theorem run'_releaseOf_machine [SettingsFormat] [ProgramSearch] (l : Launch) (c : CommandLine) (files : FileTree) (r : Runner) :
    (releaseOf l c).run' r (l.machine files) =
      match l.validated c files with
      | .error e =>
        (.error (.configuration e), ((Settings.loadFrom (l.scriptDirOf c)).run' r (l.machine files)).2)
      | .ok config =>
        (Release.run config l.now).run' r ((Settings.loadFrom (l.scriptDirOf c)).run' r (l.machine files)).2 :=
  run'_releaseOf l c r (l.machine files)

/-! ## The installer compiler a launch finds -/

/-- What the which crate documents of its search: what it finds is an executable file. -/
class ProgramSearch.Executable [ProgramSearch] : Prop where
  found : ∀ {t : FileTree} {cwd : Location} {searchPath name p : String},
    ProgramSearch.find t cwd searchPath name = some p → ∃ text, t.stat cwd p = .ok (.file text true)

/-- The search this library implements returns the first candidate that passed its check. -/
instance : ProgramSearch.Executable where
  found {t cwd _ _ p} h := by
    have hexec := List.find?_some h
    cases hs : t.stat cwd p with
    | error e => simp [hs] at hexec
    | ok n =>
      cases n with
      | directory => simp [hs] at hexec
      | file text x => exact ⟨text, by simpa [hs] using hexec⟩

/-- The installer compiler is a file whenever the one on the search path is: under a Program Files
directory it is only taken as a file. -/
theorem ToolEnvironment.isFile_of_findInstallerCompiler {env : ToolEnvironment} {tree : FileTree}
    {cwd : Location} (hpath : ∀ p, env.installerCompilerOnPath = some p → tree.isFile? cwd p = true)
    {p : String} (h : env.findInstallerCompiler tree cwd = some p) : tree.isFile? cwd p = true := by
  rw [ToolEnvironment.findInstallerCompiler_eq] at h
  cases hfound : env.programFiles.find? (fun q => tree.isFile? cwd (ToolEnvironment.compilerUnder q))
    with
  | none =>
    rw [hfound, Option.map_none, Option.none_or] at h
    exact hpath p h
  | some q =>
    rw [hfound, Option.map_some, Option.some_or, Option.some_inj] at h
    subst h
    have hq := List.find?_some hfound
    exact hq

/-- The compiler a launch finds on the search path is an executable file of the tree. -/
theorem toolEnvironment_onPath_isFile [ProgramSearch] [ProgramSearch.Executable] (l : Launch)
    (t : FileTree) {p : String} (h : (toolEnvironment l t).installerCompilerOnPath = some p) :
    t.isFile? (FileTree.locationOf l.cwd) p = true := by
  obtain ⟨text, hstat⟩ := ProgramSearch.Executable.found h
  simp [FileTree.isFile?, hstat, Node.isFile]

/-- **The installer compiler exists.** Every configuration a command line validates to names as
its installer compiler a file of the tree the launch sees: the one under a Program Files directory,
or the executable the search path leads to. -/
theorem Launch.compiler_isFile [SettingsFormat] [ProgramSearch] [ProgramSearch.Executable]
    {l : Launch} {c : CommandLine} {files : FileTree} {config : BuildConfiguration}
    (hv : l.validated c files = .ok config) {p : String} (hp : config.installerCompiler = some p) :
    files.isFile? (FileTree.locationOf l.cwd) p = true := by
  obtain ⟨-, -, v, -, rfl⟩ := (BuildConfiguration.validate_eq_ok_iff _ _ _ _ _ _).1 hv
  simp only [BuildConfiguration.configurationOf, BuildConfiguration.compilerOf] at hp
  split at hp
  · exact ToolEnvironment.isFile_of_findInstallerCompiler
      (fun _ hpath => toolEnvironment_onPath_isFile l files hpath) hp
  · cases hp

section Outcomes

variable [ArgumentReader] [SettingsFormat] [ProgramSearch] {l : Launch} {c : CommandLine}
  {files : FileTree} (hc : ArgumentReader.read l.args (l.getEnv? scriptDirVariable) = .ok (.run c)) (terminal : Bool)

include hc

/-- Without a script directory, given or next to the executable, the program stops with status 1
and the reason on standard error, before it loads or changes anything. -/
theorem runProgramOn_of_unlocated {reason : String} (h : l.scriptDir? c = .error reason) :
    runProgramOn terminal l files = ⟨1, "", "error: " ++ reason ++ "\n", files⟩ := by
  simp only [runProgramOn, hc, h]

variable {dir : String} (hdir : l.scriptDir? c = .ok dir)

include hdir

/-- A refused configuration ends the program with status 1, the validation diagnostic last on
standard error, and the files the loading of the settings left. -/
theorem runProgramOn_of_refused {e : ValidationError} (hv : l.validated c files = .error e) :
    ∃ out err, runProgramOn terminal l files =
      ⟨1, out, err ++ (Failure.configuration e).diagnostic.format (l.diagnosticColour terminal),
        (l.loaded c files).files⟩ := by
  rw [runProgramOn_of_run hc hdir, run'_releaseOf_machine, hv]
  exact ⟨_, _, rfl⟩

/-- A release that succeeds ends the program with status 0 and the report of its installers last
on standard output. -/
theorem runProgramOn_of_succeeded {config : BuildConfiguration} {installers : List String}
    {m : Machine} (hv : l.validated c files = .ok config)
    (hr : (Release.run config l.now).run' Runner.host (l.loaded c files) = (.ok installers, m)) :
    ∃ out err, runProgramOn terminal l files =
      ⟨0, out ++ ("Build completed successfully!\n" ++
        String.join (installers.map fun i => "  " ++ i ++ "\n")), err, m.files⟩ := by
  rw [runProgramOn_of_run hc hdir, run'_releaseOf_machine, hv]
  simp only [Launch.loaded] at hr
  dsimp only
  rw [hr]
  exact ⟨_, _, rfl⟩

/-- A release that fails ends the program with status 1 and its diagnostic last on standard
error. -/
theorem runProgramOn_of_failed {config : BuildConfiguration} {f : Failure} {m : Machine}
    (hv : l.validated c files = .ok config)
    (hr : (Release.run config l.now).run' Runner.host (l.loaded c files) = (.error f, m)) :
    ∃ out err, runProgramOn terminal l files =
      ⟨1, out, err ++ f.diagnostic.format (l.diagnosticColour terminal), m.files⟩ := by
  rw [runProgramOn_of_run hc hdir, run'_releaseOf_machine, hv]
  simp only [Launch.loaded] at hr
  dsimp only
  rw [hr]
  exact ⟨_, _, rfl⟩

end Outcomes

/-- What the program does with a request to run a release: the settings it loads, its exit status
and what it prints, and what a refused configuration leaves behind. -/
structure Behaves [ArgumentReader] [SettingsFormat] [ProgramSearch] (terminal : Bool) (l : Launch) (files : FileTree) (c : CommandLine) : Prop where
  /-- The settings are the file's own when it reads as settings, else the defaults, and loading
  them writes nothing. -/
  settings :
    ((Settings.loadFrom (l.scriptDirOf c)).run' Runner.host (l.machine files)).1 =
        .ok (Settings.fromFile files (FileTree.locationOf l.cwd) (l.scriptDirOf c)) ∧
      (l.loaded c files).files = files
  /-- Status 0 exactly when validation and the release succeed. -/
  exit_zero_iff : (runProgramOn terminal l files).code = 0 ↔ ∃ config installers,
    l.validated c files = .ok config ∧
      ((Release.run config l.now).run' Runner.host (l.loaded c files)).1 = .ok installers
  /-- A release that succeeds ends standard output with the report of its installers. -/
  report : ∀ config installers, l.validated c files = .ok config →
    ((Release.run config l.now).run' Runner.host (l.loaded c files)).1 = .ok installers →
    ∃ logs, (runProgramOn terminal l files).stdout = logs ++ ("Build completed successfully!\n" ++
      String.join (installers.map fun i => "  " ++ i ++ "\n"))
  /-- A release that fails ends the program with status 1 and its diagnostic last on standard
  error, coloured exactly when `NO_COLOR` is unset and standard error is a terminal. -/
  run_failure : ∀ config f, l.validated c files = .ok config →
    ((Release.run config l.now).run' Runner.host (l.loaded c files)).1 = .error f →
    (runProgramOn terminal l files).code = 1 ∧ ∃ before, (runProgramOn terminal l files).stderr =
      before ++ f.diagnostic.format ((l.getEnv? "NO_COLOR").isNone && terminal)
  /-- A refused configuration ends the program with status 1 and the validation diagnostic last
  on standard error; it starts no tool, and the files are left exactly as they were. -/
  validation_failure : ∀ e, l.validated c files = .error e →
    (runProgramOn terminal l files).code = 1 ∧
    (∃ before, (runProgramOn terminal l files).stderr =
      before ++ (Failure.configuration e).diagnostic.format
        ((l.getEnv? "NO_COLOR").isNone && terminal)) ∧
    (runProgramOn terminal l files).files = files ∧
    ∀ r : Runner, ((releaseOf l c).run' r.recording (l.machine files)).2.calls = []

/-- Once the script directory is known, the program behaves as `Behaves` says. -/
theorem behaves_of_located [ArgumentReader] [SettingsFormat] [ProgramSearch] {terminal : Bool}
    {l : Launch} {files : FileTree} {c : CommandLine} (hc : ArgumentReader.read l.args (l.getEnv? scriptDirVariable) = .ok (.run c)) {dir : String}
    (hdir : l.scriptDir? c = .ok dir) : Behaves terminal l files c := by
  have hkept : (l.loaded c files).files = files :=
    Settings.keepsFiles_loadOrDefault _ Runner.host (l.machine files)
  refine ⟨⟨Settings.run'_loadOrDefault_fst _ Runner.host (l.machine files), hkept⟩, ?exit, ?report,
    ?failure, ?refused⟩
  case exit =>
    constructor
    · -- status 0 comes from neither a refused configuration nor a failed release
      intro hzero
      rcases hv : l.validated c files with e | config
      · obtain ⟨out, err, ho⟩ := runProgramOn_of_refused hc terminal hdir hv
        simp [ho] at hzero
      · rcases hr : (Release.run config l.now).run' Runner.host (l.loaded c files) with
          ⟨_ | installers, m⟩
        · obtain ⟨out, err, ho⟩ := runProgramOn_of_failed hc terminal hdir hv hr
          simp [ho] at hzero
        · exact ⟨config, installers, rfl, by rw [hr]⟩
    · rintro ⟨config, installers, hv, hr⟩
      rcases hrun : (Release.run config l.now).run' Runner.host (l.loaded c files) with ⟨res, m⟩
      obtain rfl : res = .ok installers := by simpa [hrun] using hr
      obtain ⟨out, err, ho⟩ := runProgramOn_of_succeeded hc terminal hdir hv hrun
      simp [ho]
  case report =>
    intro config installers hv hr
    rcases hrun : (Release.run config l.now).run' Runner.host (l.loaded c files) with ⟨res, m⟩
    obtain rfl : res = .ok installers := by simpa [hrun] using hr
    obtain ⟨out, err, ho⟩ := runProgramOn_of_succeeded hc terminal hdir hv hrun
    exact ⟨out, by simp [ho]⟩
  case failure =>
    intro config f hv hr
    rcases hrun : (Release.run config l.now).run' Runner.host (l.loaded c files) with ⟨res, m⟩
    obtain rfl : res = .error f := by simpa [hrun] using hr
    obtain ⟨out, err, ho⟩ := runProgramOn_of_failed hc terminal hdir hv hrun
    exact ⟨by simp [ho], err, by simp [ho, Launch.diagnosticColour]⟩
  case refused =>
    intro e hv
    obtain ⟨out, err, ho⟩ := runProgramOn_of_refused hc terminal hdir hv
    refine ⟨by simp [ho], ⟨err, by simp [ho, Launch.diagnosticColour]⟩, by simp [ho, hkept],
      fun r => ?_⟩
    -- loading the settings records no call, and a refused configuration stops right after
    rw [run'_releaseOf_machine, hv]
    exact (Settings.quiet_loadOrDefault _).silent r.recording (l.machine files)

/-- **The program's outcome.** For every command line that reads as a request to run a release,
every environment, terminal or not, and every file tree: without a script directory, given or
next to the executable, the program stops with status 1 and the reason on standard error, and
changes nothing; with one, it behaves as `Behaves` says: settings from the file next to the
scripts or the defaults; status 0 exactly when validation and the release succeed, with the
report of the installers last on standard output; status 1 with the failure's diagnostic last on
standard error otherwise; and a refused configuration starts no tool and changes no file. -/
theorem runProgramOn_behaves [ArgumentReader] [SettingsFormat] [ProgramSearch] (terminal : Bool)
    (l : Launch) (files : FileTree) (c : CommandLine) (hc : ArgumentReader.read l.args (l.getEnv? scriptDirVariable) = .ok (.run c)) :
    (∀ reason, l.scriptDir? c = .error reason →
      runProgramOn terminal l files = ⟨1, "", "error: " ++ reason ++ "\n", files⟩) ∧
    ∀ dir, l.scriptDir? c = .ok dir → Behaves terminal l files c :=
  ⟨fun _ h => runProgramOn_of_unlocated hc terminal h, fun _ hdir => behaves_of_located hc hdir⟩

/-- A command line that names only the version, run with standard error on a terminal. -/
theorem runProgramOn_behaves_versionOnly :
    let l : Launch := ⟨["-v", "1.0"], [], "/w", "/w", ⟨2024, 1, 1, 0, 0, 0, 0⟩⟩
    ArgumentReader.read l.args (l.getEnv? scriptDirVariable) = .ok (.run { version := some "1.0" }) ∧
      Behaves true l {} { version := some "1.0" } := by
  intro l
  have hc : ArgumentReader.read l.args (l.getEnv? scriptDirVariable) =
      .ok (.run { version := some "1.0" }) := by
    cbv
  exact ⟨hc, (runProgramOn_behaves true l {} _ hc).2 "/w" rfl⟩

end ReleaseBuild
