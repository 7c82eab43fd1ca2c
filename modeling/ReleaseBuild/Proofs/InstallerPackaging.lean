import ReleaseBuild.Proofs.InstallerStaging
import ReleaseBuild.Proofs.ToolCalls
import ReleaseBuild.Proofs.WriteConfinement
/-!
# Packaging the installer

`Packaging.package` checks the build root, fills the staging directory, signs the staged driver
images, runs the installer compiler inside the staging directory, copies its output to
`build_root/installers/Hone-<version>-<platform>.exe` and signs that. This module says what the
compiler finds and what packaging publishes, for a configuration that validation accepted:

* when the compiler is called, the staging directory holds exactly `Packaging.stagedArea` of the
  tree packaging started from — nothing that stood there before survives — provided the tools
  called before write no files and the paths staging reads keep out of `build_root/temp`;
* a packaging that succeeds returns the one published installer, which holds what the compiler
  left in `Output/Hone.exe`, provided the platform tag holds no separator and the signing of the
  installer writes no files.

Packaging is cut at the compiler's call (`package_eq`): `untilCompiler` is everything before it
and `fromCompiler` the call and everything after. Staging runs the same from every working
directory (`Packaging.cwdFree_prepareStaging`), so it is read from the root, where
`Packaging.leads_prepareStaging` gives what it leaves.
-/

set_option autoImplicit false

namespace ReleaseBuild

open FileTree ReleaseM

variable {α β γ : Type}

/-! ## Runs that keep the files -/

/-- Under the runner `r`, the computation leaves the files as they are, however it ends. -/
def KeepsFilesUnder (r : Runner) (x : ReleaseM α) : Prop :=
  ∀ m, (x.run' r m).2.files = m.files

/-- A runner whose tools write no files when answering the given calls. -/
def Runner.WritesNothingFor (r : Runner) (cmds : List Invocation) : Prop :=
  ∀ cmd ∈ cmds, ∀ m, (r.run cmd m).2.files = m.files

namespace KeepsFilesUnder

variable {r : Runner}

theorem pure (a : α) : KeepsFilesUnder r (Pure.pure a : ReleaseM α) := fun _ => rfl

theorem fail (e : Failure) : KeepsFilesUnder r (ReleaseM.fail e : ReleaseM α) := fun _ => rfl

theorem log (level : Level) (reporter : Reporter) (message : String) :
    KeepsFilesUnder r (ReleaseM.log level reporter message) := fun _ => rfl

theorem bind {x : ReleaseM α} {f : α → ReleaseM β} (hx : KeepsFilesUnder r x)
    (hf : ∀ a, KeepsFilesUnder r (f a)) : KeepsFilesUnder r (x >>= f) := by
  intro m
  rw [run'_bind]
  rcases hrun : x.run' r m with ⟨_ | a, m₁⟩
  · rw [← hx m, hrun]
  · rw [hf a m₁, ← hx m, hrun]

theorem forM {l : List γ} {f : γ → ReleaseM PUnit} (h : ∀ c ∈ l, KeepsFilesUnder r (f c)) :
    KeepsFilesUnder r (l.forM f) := by
  induction l with
  | nil => exact pure PUnit.unit
  | cons c l ih =>
    rw [List.forM_eq_forM, List.forM_cons]
    exact (h c (by simp)).bind fun _ => ih fun c' hc' => h c' (by simp [hc'])

/-- A tool whose answer writes no files. -/
theorem runTool (tool : String) {cmd : Invocation} (h : ∀ m, (r.run cmd m).2.files = m.files) :
    KeepsFilesUnder r (ReleaseM.runTool tool cmd) := fun m => by
  rw [run'_runTool]
  exact h m

theorem runChecked (tool : String) {cmd : Invocation} (h : ∀ m, (r.run cmd m).2.files = m.files) :
    KeepsFilesUnder r (ReleaseM.runChecked tool cmd) := fun m => by
  rw [run'_runChecked]
  exact h m

end KeepsFilesUnder

namespace Signing

/-- The calls that sign and timestamp a file: the signing call, then one timestamp call for each
server. -/
def calls (s : SigningConfig) (servers : List String) (file : String) : List Invocation :=
  signCommand s file :: servers.map fun server => timestampCommand s server file

variable {r : Runner} {s : SigningConfig} {file : String}

theorem keepsFilesUnder_tryServers {servers : List String}
    (h : ∀ server ∈ servers, ∀ m,
      (r.run (timestampCommand s server file) m).2.files = m.files) :
    KeepsFilesUnder r (tryServers s file servers) := by
  induction servers with
  | nil => exact KeepsFilesUnder.pure _
  | cons server rest ih =>
    unfold tryServers
    refine (KeepsFilesUnder.log _ _ _).bind fun _ =>
      (KeepsFilesUnder.runTool _ (h server (by simp))).bind fun status => ?_
    split
    · exact KeepsFilesUnder.pure _
    · exact (KeepsFilesUnder.log _ _ _).bind fun _ =>
        ih fun server' hs' => h server' (by simp [hs'])

/-- **Signing writes only what the signing tool writes.** When none of its calls writes a file,
signing and timestamping a file leaves the files as they are, however it ends. -/
theorem keepsFilesUnder_signAndTimestamp {servers : List String}
    (h : r.WritesNothingFor (calls s servers file)) :
    KeepsFilesUnder r (signAndTimestamp s servers file) := by
  unfold signAndTimestamp sign timestamp
  refine ((KeepsFilesUnder.log _ _ _).bind fun _ =>
    KeepsFilesUnder.runChecked _ (h _ (by simp [calls]))).bind fun _ =>
    (keepsFilesUnder_tryServers fun server hs => h _ ?_).bind fun ok => ?_
  · exact List.mem_cons_of_mem _ (List.mem_map_of_mem hs)
  · split
    · exact KeepsFilesUnder.fail _
    · exact KeepsFilesUnder.pure _

end Signing

/-! ## Packaging cut at the compiler's call -/

theorem ReleaseM.fail_bind_eq (e : Failure) (f : α → ReleaseM β) :
    (ReleaseM.fail e : ReleaseM α) >>= f = ReleaseM.fail e := rfl

theorem ReleaseM.map_fail (e : Failure) (f : α → β) :
    f <$> (ReleaseM.fail e : ReleaseM α) = ReleaseM.fail e := rfl

/-- A run of `x >>= f` that succeeds ran `x` to a success, then `f` of its result. -/
theorem ReleaseM.of_bind_ok {x : ReleaseM α} {f : α → ReleaseM β} {r : Runner} {m m' : Machine}
    {b : β} (h : (x >>= f).run' r m = (.ok b, m')) :
    ∃ a m₁, x.run' r m = (.ok a, m₁) ∧ (f a).run' r m₁ = (.ok b, m') := by
  rw [run'_bind] at h
  rcases hx : x.run' r m with ⟨_ | a, m₁⟩ <;> rw [hx] at h
  · cases h
  · exact ⟨a, m₁, rfl, h⟩

/-- A checked call that succeeds leaves the machine its tool's answer left. -/
theorem ReleaseM.of_runChecked_ok {tool : String} {cmd : Invocation} {r : Runner} {m m' : Machine}
    {u : Unit} (h : (runChecked tool cmd).run' r m = (.ok u, m')) : m' = (r.run cmd m).2 := by
  rw [run'_runChecked] at h
  exact (congrArg Prod.snd h).symm

/-- Ensuring a directory keeps the working directory, and every location off the path's way. -/
theorem Files.of_run'_ensureDir {P : String} {r : Runner} {m m' : Machine} {u : Unit}
    (h : (Files.ensureDir P).run' r m = (.ok u, m')) {z : Location}
    (hz : z ∉ trace m.cwdLocation P) : m'.cwd = m.cwd ∧ m'.files.get? z = m.files.get? z := by
  rw [Files.run'_ensureDir] at h
  split at h
  · obtain ⟨-, rfl⟩ := Prod.mk.inj h
    exact ⟨rfl, rfl⟩
  · split at h
    · rename_i t' hmk
      obtain ⟨-, rfl⟩ := Prod.mk.inj h
      exact ⟨rfl, get?_makeDirAllFuel_outside (valid_locationOf m.cwd) hmk hz⟩
    · cases (Prod.mk.inj h).1

/-- A copy that succeeds keeps the working directory and made its tree by copying. -/
theorem Files.of_run'_copyTo {src dst : String} {r : Runner} {m m' : Machine} {u : Unit}
    (h : (Files.copyTo src dst).run' r m = (.ok u, m')) :
    m'.cwd = m.cwd ∧ m.files.copy m.cwdLocation src dst = .ok m'.files := by
  simp only [Files.copyTo, debug, run'_bind, run'_log, run'_onFiles, Machine.emit_files,
    Machine.emit_cwdLocation] at h
  cases hc : m.files.copy m.cwdLocation src dst with
  | error e => simp [hc, Except.map] at h
  | ok t' =>
    simp only [hc, Except.map, Prod.mk.injEq] at h
    obtain ⟨-, rfl⟩ := h
    exact ⟨rfl, rfl⟩

namespace Packaging

/-- The installer compiler's call: the script, run inside the staging directory. -/
def compileCommand (c : BuildConfiguration) (compiler : String) : Invocation :=
  (Invocation.ofProgram compiler).arg script |>.inDir c.layout.installerStaging

/-- Packaging's first step: fail unless the build root is a directory. -/
def checkBuildRoot (c : BuildConfiguration) : ReleaseM Unit := do
  let m ← get
  if !m.files.isDirectory? m.cwdLocation c.buildRoot then fail (.missingBuildRoot c.buildRoot)

/-- Sign and timestamp the driver image staged for each architecture, when signing. -/
def signStagedDrivers (c : BuildConfiguration) : ReleaseM Unit :=
  match c.signing with
  | some s => Architecture.all.forM fun arch =>
      Signing.signAndTimestamp s c.timestampServers
        (Path.join (c.layout.installerStagingArch arch) driverImage)
  | none => pure ()

/-- The installer compiler, announced; without one packaging cannot go on. -/
def findCompiler (c : BuildConfiguration) : ReleaseM String := do
  let some compiler := c.installerCompiler | fail .missingInstallerCompiler
  info .packaging "Building installer"
  pure compiler

/-- Everything packaging does before its compiler runs: check the build root, fill the staging
directory, sign the staged driver images and find the compiler, which it returns. -/
def untilCompiler (c : BuildConfiguration) : ReleaseM String := do
  checkBuildRoot c
  prepareStaging c c.layout.installerStaging
  signStagedDrivers c
  findCompiler c

/-- Sign and timestamp the published installer, when signing. -/
def signInstaller (c : BuildConfiguration) : ReleaseM Unit :=
  match c.signing with
  | some s => Signing.signAndTimestamp s c.timestampServers c.publishedInstaller
  | none => pure ()

/-- The compiler's call and everything packaging does after it: publish the compiler's output and
sign it. -/
def fromCompiler (c : BuildConfiguration) (compiler : String) : ReleaseM (List String) := do
  runChecked compilerToolName (compileCommand c compiler)
  Files.ensureDir c.layout.installers
  Files.copyTo (Path.joinAll c.layout.installerStaging compilerOutput) c.publishedInstaller
  info .packaging ("Installer written to " ++ c.publishedInstaller)
  signInstaller c
  pure [c.publishedInstaller]

theorem publishedInstaller_eq (c : BuildConfiguration) :
    c.publishedInstaller =
      Path.join c.layout.installers (installerFileName c.version.text c.platformTag) := rfl

/-- **Packaging, cut at the compiler's call.** -/
theorem package_eq (c : BuildConfiguration) : package c = untilCompiler c >>= fromCompiler c := by
  unfold package untilCompiler checkBuildRoot signStagedDrivers findCompiler fromCompiler
    signInstaller compileInstaller compileCommand
  simp only [bind_assoc, publishedInstaller_eq]
  congr 1
  funext m
  cases hs : c.signing <;> cases hc : c.installerCompiler <;> split <;>
    simp [bind_assoc, ReleaseM.fail_bind_eq, ReleaseM.map_fail]

/-- The calls packaging makes before its compiler's: the signing of each staged driver image. -/
def callsBeforeCompiler (c : BuildConfiguration) : List Invocation :=
  match c.signing with
  | some s => Architecture.all.flatMap fun arch =>
      Signing.calls s c.timestampServers
        (Path.join (c.layout.installerStagingArch arch) driverImage)
  | none => []

/-- The calls packaging makes after its compiler's: the signing of the published installer. -/
def callsAfterCompiler (c : BuildConfiguration) : List Invocation :=
  match c.signing with
  | some s => Signing.calls s c.timestampServers c.publishedInstaller
  | none => []

end Packaging

/-! ## Absolute paths read from the root -/

section Root

variable {path : String}

theorem startOf_root (h : Path.isAbsolute path = true) (cwd : Location) :
    startOf cwd path = [] := by
  have hs : path.startsWith "/" = true := h
  simp [startOf, hs]

theorem place_root (h : Path.isAbsolute path = true) (cwd : Location) :
    place cwd path = place [] path := by
  unfold place
  rw [startOf_root h, startOf_root h]

theorem trace_root (h : Path.isAbsolute path = true) (cwd : Location) :
    trace cwd path = trace [] path := by
  unfold trace
  rw [startOf_root h, startOf_root h]

theorem KeepsOut.root {root cwd : Location} (hout : KeepsOut root cwd path)
    (h : Path.isAbsolute path = true) : KeepsOut root [] path := by
  unfold KeepsOut
  rwa [← trace_root h cwd]

theorem FileTree.fileAt_root (t : FileTree) (h : Path.isAbsolute path = true) (cwd : Location) :
    t.fileAt cwd path = t.fileAt [] path := by
  unfold FileTree.fileAt
  rw [lookup_root h]

theorem FileTree.fileIn_root (t : FileTree) (h : Path.isAbsolute path = true) (cwd : Location)
    (takes : String → Bool) : t.fileIn cwd path takes = t.fileIn [] path takes := by
  funext n
  unfold FileTree.fileIn
  rw [lookup_root h]

end Root

/-- The root of the working directory `/`. -/
theorem Machine.cwdLocation_root (m : Machine) : { m with cwd := "/" }.cwdLocation = [] := by
  show FileTree.locationOf "/" = []
  decide

/-- **A validated configuration names absolute paths.** Validated from an absolute working
directory, the build root, the script directory and the certificate are absolute paths. -/
theorem BuildConfiguration.isAbsolute_of_validate {args : ReleaseArgs} {env : ToolEnvironment}
    {settings : Settings} {tree : FileTree} {cwd : String} {c : BuildConfiguration}
    (h : BuildConfiguration.validate args env settings tree cwd = .ok c)
    (hcwd : Path.isAbsolute cwd = true) :
    Path.isAbsolute c.layout.root = true ∧ Path.isAbsolute c.scriptDir = true ∧
      ∀ s, c.signing = some s → Path.isAbsolute s.certificate = true := by
  have hacc := BuildConfiguration.accepted_of_validate_eq_ok args env settings tree cwd h hcwd
  have houtput : Path.isAbsolute c.outputRoot = true := by
    have ho := hacc.outputRoot
    split at ho
    · exact Path.isAbsolute_of_absolute_eq_ok hcwd ho
    · rw [ho]
      exact hacc.scriptDir_absolute
  refine ⟨?_, hacc.scriptDir_absolute, fun s hs => ?_⟩
  · show Path.isAbsolute c.buildRoot = true
    rw [hacc.buildRoot]
    exact Path.isAbsolute_join _ houtput
  · obtain ⟨-, ⟨cert, -, hcert⟩, -⟩ := hacc.signing s hs
    exact Path.isAbsolute_of_absolute_eq_ok hcwd hcert

namespace Packaging

/-- The paths staging reads keep out of `build_root/temp`, the directory staging empties first:
reading the build root, the script directory and the certificate from `cwd` never passes through
it. -/
structure ReadsOutsideTemp (c : BuildConfiguration) (cwd : Location) : Prop where
  buildRoot : KeepsOut (place cwd c.buildRoot) cwd c.buildRoot
  scriptDir : KeepsOut (place cwd c.buildRoot) cwd c.scriptDir
  certificate : ∀ s, c.signing = some s → KeepsOut (place cwd c.buildRoot) cwd s.certificate

/-- The staged area read from any working directory is the one read from the root, when the
paths it is read from are absolute. -/
theorem stagedArea_root (c : BuildConfiguration) (t : FileTree) (cwd : Location)
    (hroot : Path.isAbsolute c.layout.root = true) (hscript : Path.isAbsolute c.scriptDir = true)
    (hcert : ∀ s, c.signing = some s → Path.isAbsolute s.certificate = true) :
    stagedArea c t cwd = stagedArea c t [] := by
  have hbuild (arch : Architecture) (takes : String → Bool) :
      t.fileIn cwd (c.layout.buildFiles arch) takes =
        t.fileIn [] (c.layout.buildFiles arch) takes :=
    t.fileIn_root (Path.isAbsolute_joinAll _ hroot) cwd takes
  have hcopy : certificateCopy c t cwd = certificateCopy c t [] := by
    funext n
    unfold certificateCopy
    split
    · rename_i s hs
      rw [t.fileAt_root (hcert s hs)]
    · rfl
  have hcopied : copiedArea c t cwd = copiedArea c t [] := by
    refine StagingArea.ext (funext fun n => ?_) (funext fun d => ?_)
    · simp only [copiedArea, hcopy, hbuild, t.fileAt_root (Path.isAbsolute_join _ hscript),
        t.fileIn_root (Path.isAbsolute_join _ hscript)]
    · simp only [copiedArea, hbuild]
  rw [stagedArea, stagedArea, hcopied]

/-! ## The steps before the compiler's call -/

variable {c : BuildConfiguration} {r : Runner} {m m' : Machine}

/-- The check of the build root passes, unchanged, exactly from a machine where the build root's
path names a directory. -/
theorem run'_checkBuildRoot {u : Unit} (h : (checkBuildRoot c).run' r m = (.ok u, m')) :
    m' = m ∧ ∃ loc, m.files.lookup m.cwdLocation c.buildRoot = .ok (loc, .directory) := by
  unfold checkBuildRoot at h
  rw [run'_bind, run'_get] at h
  cases hd : m.files.isDirectory? m.cwdLocation c.buildRoot
  · simp [hd, run'_fail] at h
  · simp only [hd, Bool.not_true] at h
    exact ⟨(congrArg Prod.snd h).symm, isDirectory?_eq_true.1 hd⟩

theorem keepsFilesUnder_signStagedDrivers (h : r.WritesNothingFor (callsBeforeCompiler c)) :
    KeepsFilesUnder r (signStagedDrivers c) := by
  unfold signStagedDrivers
  split
  · rename_i s hs
    refine KeepsFilesUnder.forM fun arch harch =>
      Signing.keepsFilesUnder_signAndTimestamp fun cmd hcmd => h cmd ?_
    simp only [callsBeforeCompiler, hs]
    exact List.mem_flatMap.2 ⟨arch, harch, hcmd⟩
  · exact KeepsFilesUnder.pure _

/-- Finding the compiler returns the configured one and keeps the files. -/
theorem run'_findCompiler {compiler : String}
    (h : (findCompiler c).run' r m = (.ok compiler, m')) :
    c.installerCompiler = some compiler ∧ m'.files = m.files := by
  unfold findCompiler at h
  cases hc : c.installerCompiler with
  | none => simp [hc, run'_fail] at h
  | some x =>
    simp only [hc, info, run'_bind, run'_log, run'_pure, Prod.mk.injEq, Except.ok.injEq] at h
    obtain ⟨rfl, rfl⟩ := h
    exact ⟨rfl, rfl⟩

/-- **The staging, from any working directory.** From a real tree in which the build root's path
names a directory, a staging that succeeds leaves in the staging directory exactly the staged
area and everything outside `build_root/temp` as it was, when the paths it reads are absolute and
keep out of `build_root/temp`. -/
theorem staged_of_prepareStaging {u : Unit} (ht : m.files.Valid)
    (hroot : Path.isAbsolute c.layout.root = true) (hscript : Path.isAbsolute c.scriptDir = true)
    (hcert : ∀ s, c.signing = some s → Path.isAbsolute s.certificate = true)
    (hreads : ReadsOutsideTemp c m.cwdLocation) {loc : Location}
    (hdir : m.files.lookup m.cwdLocation c.buildRoot = .ok (loc, .directory))
    (h : (prepareStaging c c.layout.installerStaging).run' r m = (.ok u, m')) :
    Staged m.files (place m.cwdLocation c.buildRoot) (stagedArea c m.files []) m'.files := by
  -- staging runs the same from the root, where `leads_prepareStaging` reads it
  rw [CwdFree.run'_eq_root (cwdFree_prepareStaging c hroot hscript hcert)] at h
  obtain ⟨hresult, rfl⟩ := Prod.mk.inj h
  obtain ⟨rfl, -⟩ := lookup_eq_ok hdir
  have hlookup : m.files.lookup [] c.layout.root =
      .ok (place m.cwdLocation c.buildRoot, .directory) :=
    calc m.files.lookup [] c.layout.root = m.files.lookup m.cwdLocation c.buildRoot :=
          (lookup_root hroot).symm
      _ = _ := hdir
  have hleads := leads_prepareStaging c ht hlookup hroot hscript (hreads.buildRoot.root hroot)
    (hreads.scriptDir.root hscript) fun s hs => (hreads.certificate s hs).root (hcert s hs)
  exact (hleads r { m with cwd := "/" } u _ ⟨Machine.cwdLocation_root m, rfl⟩
    (Prod.ext hresult rfl)).2

/-- **What packaging has done when its compiler is called.** A run of everything before the
compiler's call that succeeds returns the configured compiler and leaves the staging directory
holding exactly the staged area of the tree it started from. -/
theorem untilCompiler_staged {compiler : String} (ht : m.files.Valid)
    (hroot : Path.isAbsolute c.layout.root = true) (hscript : Path.isAbsolute c.scriptDir = true)
    (hcert : ∀ s, c.signing = some s → Path.isAbsolute s.certificate = true)
    (hreads : ReadsOutsideTemp c m.cwdLocation)
    (hbefore : r.WritesNothingFor (callsBeforeCompiler c))
    (h : (untilCompiler c).run' r m = (.ok compiler, m')) :
    c.installerCompiler = some compiler ∧
      Staged m.files (place m.cwdLocation c.buildRoot) (stagedArea c m.files []) m'.files := by
  obtain ⟨u₁, m₁, hcheck, hstaging⟩ := ReleaseM.of_bind_ok h
  obtain ⟨rfl, loc, hdir⟩ := run'_checkBuildRoot hcheck
  obtain ⟨u₂, m₂, hstage, hsigning⟩ := ReleaseM.of_bind_ok hstaging
  obtain ⟨u₃, m₃, hsign, hfind⟩ := ReleaseM.of_bind_ok hsigning
  obtain ⟨hc, hfiles⟩ := run'_findCompiler hfind
  have hsigned : m₃.files = m₂.files := by
    rw [← keepsFilesUnder_signStagedDrivers hbefore m₂, hsign]
  refine ⟨hc, ?_⟩
  rw [hfiles, hsigned]
  exact staged_of_prepareStaging ht hroot hscript hcert hreads hdir hstage

theorem keepsFilesUnder_signInstaller (h : r.WritesNothingFor (callsAfterCompiler c)) :
    KeepsFilesUnder r (signInstaller c) := by
  unfold signInstaller
  split
  · rename_i s hs
    exact Signing.keepsFilesUnder_signAndTimestamp fun cmd hcmd => h cmd (by
      simp only [callsAfterCompiler, hs]
      exact hcmd)
  · exact KeepsFilesUnder.pure _

theorem isAbsolute_compilerOutput (hroot : Path.isAbsolute c.layout.root = true) :
    Path.isAbsolute (Path.joinAll c.layout.installerStaging compilerOutput) = true :=
  Path.isAbsolute_joinAll _ (Path.isAbsolute_joinAll _ hroot)

theorem isAbsolute_publishedInstaller (hroot : Path.isAbsolute c.layout.root = true) :
    Path.isAbsolute c.publishedInstaller = true :=
  Path.isAbsolute_join _ (Path.isAbsolute_join _ hroot)

/-- Where the compiler's output lies: `build_root/temp/installer/Output/Hone.exe`. -/
theorem place_compilerOutput (hroot : Path.isAbsolute c.layout.root = true) (cwd : Location) :
    place cwd (Path.joinAll c.layout.installerStaging compilerOutput) =
      place [] c.layout.root ++ ["temp", "installer", "Output", "Hone.exe"] := by
  rw [place_root (isAbsolute_compilerOutput hroot), BuildLayout.installerStaging, compilerOutput,
    place_joinAll (by decide), place_joinAll (by decide)]
  simp

/-- Where the installer is published: `build_root/installers/<installer name>`. -/
theorem place_publishedInstaller (hroot : Path.isAbsolute c.layout.root = true)
    (hname : ValidName (installerFileName c.version.text c.platformTag)) (cwd : Location) :
    place cwd c.publishedInstaller =
      place [] c.layout.root ++ ["installers", installerFileName c.version.text c.platformTag] := by
  rw [place_root (isAbsolute_publishedInstaller hroot), publishedInstaller_eq,
    BuildLayout.installers, place_join hname, place_join (by decide)]
  simp

/-- **What packaging publishes.** A run of the compiler's call and everything after it that
succeeds returns the published installer alone, and the published installer holds the regular
file the compiler left in `Output/Hone.exe` of the staging directory, when the build root is read
without passing through `build_root/temp`, the installer's name is a single entry and the
installer's signing writes no files. -/
theorem fromCompiler_publishes {compiler : String} {l : List String}
    (hroot : Path.isAbsolute c.layout.root = true)
    (hR : KeepsOut (place [] c.layout.root) [] c.layout.root)
    (hname : ValidName (installerFileName c.version.text c.platformTag))
    (hafter : r.WritesNothingFor (callsAfterCompiler c))
    (h : (fromCompiler c compiler).run' r m = (.ok l, m')) :
    l = [c.publishedInstaller] ∧ ∃ content x,
      (r.run (compileCommand c compiler) m).2.files.get?
          (place [] (Path.joinAll c.layout.installerStaging compilerOutput)) =
        some (.file content x) ∧
      m'.files.get? (place [] c.publishedInstaller) = some (.file content x) := by
  obtain ⟨u₁, m₁, hcompile, hensuring⟩ := ReleaseM.of_bind_ok h
  obtain ⟨u₂, m₂, hensure, hcopying⟩ := ReleaseM.of_bind_ok hensuring
  obtain ⟨u₃, m₃, hcopy, hannouncing⟩ := ReleaseM.of_bind_ok hcopying
  obtain ⟨u₄, m₄, hinfo, hsigning⟩ := ReleaseM.of_bind_ok hannouncing
  obtain ⟨u₅, m₅, hsign, hpure⟩ := ReleaseM.of_bind_ok hsigning
  simp only [run'_pure, Prod.mk.injEq, Except.ok.injEq] at hpure
  obtain ⟨rfl, rfl⟩ := hpure
  refine ⟨rfl, ?_⟩
  -- the announcement and the signing keep the files the copy left
  have hfiles : m₅.files = m₃.files := by
    have hsigned := keepsFilesUnder_signInstaller hafter m₄
    rw [hsign] at hsigned
    simp only [info, run'_log, Prod.mk.injEq] at hinfo
    rw [hsigned, ← hinfo.2, Machine.emit_files]
  obtain ⟨-, hcopied⟩ := Files.of_run'_copyTo hcopy
  obtain ⟨src, content, x, hsrc⟩ := copy_source hcopied
  obtain ⟨rfl, hsrcFile⟩ := lookup_eq_ok hsrc
  rw [place_compilerOutput hroot] at hsrcFile
  -- the output is not where the installer goes, nor on the way to `installers`
  have hne : place m₂.cwdLocation (Path.joinAll c.layout.installerStaging compilerOutput) ≠
      place m₂.cwdLocation c.publishedInstaller := by
    rw [place_compilerOutput hroot, place_publishedInstaller hroot hname]
    simp
  have hoff : place [] c.layout.root ++ ["temp", "installer", "Output", "Hone.exe"] ∉
      trace m₁.cwdLocation c.layout.installers := by
    rw [BuildLayout.installers, trace_root (Path.isAbsolute_join _ hroot)]
    intro hz
    exact (hR.join (by decide) (by decide)) _ hz ⟨["installer", "Output", "Hone.exe"], by simp⟩
  have hkept := (Files.of_run'_ensureDir hensure hoff).2
  have hnew := (copy_eq_ok hsrc hne hcopied).2 (place m₂.cwdLocation c.publishedInstaller)
  rw [if_pos rfl] at hnew
  refine ⟨content, x, ?_, ?_⟩
  · rw [place_compilerOutput hroot, ← ReleaseM.of_runChecked_ok hcompile, ← hkept, hsrcFile]
  · rw [hfiles, ← place_root (isAbsolute_publishedInstaller hroot) m₂.cwdLocation, hnew]

/-! ## Packaging -/

/-- **What packaging does**, from the machine `m` under the runner `r`. When the compiler is
called, which happens right after `untilCompiler` (`package_eq`), the compiler is the configured
one and the staging directory holds exactly the staged area of the tree packaging started from.
A packaging that succeeds returns the published installer alone, which holds the regular file
that the compiler's call left in `Output/Hone.exe` of the staging directory. -/
structure PackageLaw (c : BuildConfiguration) (r : Runner) (m : Machine) : Prop where
  staged : ∀ compiler m₁, (untilCompiler c).run' r m = (.ok compiler, m₁) →
    c.installerCompiler = some compiler ∧
      ∀ w, m₁.files.get? (place m.cwdLocation c.layout.installerStaging ++ w) =
        (stagedArea c m.files m.cwdLocation).get w
  published : ∀ l m', (package c).run' r m = (.ok l, m') →
    l = [c.publishedInstaller] ∧ ∃ compiler m₁ content x,
      (untilCompiler c).run' r m = (.ok compiler, m₁) ∧
      (r.run (compileCommand c compiler) m₁).2.files.get?
          (place m.cwdLocation (Path.joinAll c.layout.installerStaging compilerOutput)) =
        some (.file content x) ∧
      m'.files.get? (place m.cwdLocation c.publishedInstaller) = some (.file content x)

/-- **Packaging stages the installer and publishes what its compiler built.** For a
configuration that validation accepted from an absolute working directory, with a platform tag
that holds no separator, packaging from a real tree under a runner whose signing calls write no
files follows `PackageLaw`, when the build root, the script directory and the certificate are
read without passing through `build_root/temp`. -/
theorem package_law {args : ReleaseArgs} {env : ToolEnvironment} {settings : Settings}
    {tree : FileTree} {cwd : String}
    (hvalid : BuildConfiguration.validate args env settings tree cwd = .ok c)
    (hcwd : Path.isAbsolute cwd = true) (htag : '/' ∉ settings.installer.platformTag.toList)
    (hbefore : r.WritesNothingFor (callsBeforeCompiler c))
    (hafter : r.WritesNothingFor (callsAfterCompiler c)) (ht : m.files.Valid)
    (hreads : ReadsOutsideTemp c m.cwdLocation) : PackageLaw c r m := by
  obtain ⟨hroot, hscript, hcert⟩ := BuildConfiguration.isAbsolute_of_validate hvalid hcwd
  obtain ⟨hversion, hplatform⟩ := BuildConfiguration.sep_not_mem_version_of_validate hvalid
  have hname : ValidName (installerFileName c.version.text c.platformTag) :=
    validName_installerFileName hversion (hplatform ▸ htag)
  refine ⟨fun compiler m₁ h => ?_, fun l m' h => ?_⟩
  · obtain ⟨hc, hstaged⟩ := untilCompiler_staged ht hroot hscript hcert hreads hbefore h
    refine ⟨hc, fun w => ?_⟩
    rw [stagedArea_root c m.files _ hroot hscript hcert, ← hstaged.inside w,
      BuildLayout.installerStaging, place_joinAll (by decide)]
    rfl
  · rw [package_eq] at h
    obtain ⟨compiler, m₁, huntil, hfrom⟩ := ReleaseM.of_bind_ok h
    have hR : KeepsOut (place [] c.layout.root) [] c.layout.root := by
      have hout := hreads.buildRoot.root hroot
      unfold BuildConfiguration.buildRoot at hout
      rw [place_root hroot] at hout
      exact hout
    obtain ⟨rfl, content, x, houtput, hpublished⟩ :=
      fromCompiler_publishes hroot hR hname hafter hfrom
    refine ⟨rfl, compiler, m₁, content, x, huntil, ?_, ?_⟩
    · rw [place_root (isAbsolute_compilerOutput hroot)]
      exact houtput
    · rw [place_root (isAbsolute_publishedInstaller hroot)]
      exact hpublished

/-- A packaging of version 1.0 with the compiler on the search path, validated from `/w` with the
script directory `/w/s`, from a tree holding `/w` alone and a runner whose tools change
nothing. -/
theorem package_law_sample :
    let args : ReleaseArgs :=
      { stage := "i", version := some "1.0", scriptDir := "/w/s", noSign := true }
    let env : ToolEnvironment := { installerCompilerOnPath := some "iscc" }
    let c := BuildConfiguration.configurationOf args env {} {} "/w"
      ⟨1, 0, 0, "1.0", by decide, by decide, by decide⟩
    let r : Runner := ⟨fun _ m => (.ok ⟨some 0⟩, m)⟩
    let m : Machine := { files := ⟨[(["w"], .directory)]⟩, cwd := "/w" }
    BuildConfiguration.validate args env {} {} "/w" = .ok c ∧ Path.isAbsolute "/w" = true ∧
      '/' ∉ ({} : Settings).installer.platformTag.toList ∧
      r.WritesNothingFor (callsBeforeCompiler c) ∧ r.WritesNothingFor (callsAfterCompiler c) ∧
      m.files.Valid ∧ ReadsOutsideTemp c m.cwdLocation ∧ PackageLaw c r m := by
  intro args env c r m
  have hvalid : BuildConfiguration.validate args env {} {} "/w" = .ok c :=
    (BuildConfiguration.validate_eq_ok_iff args env {} {} "/w" c).2
      ⟨by cbv, by cbv, _, by cbv, rfl⟩
  have hcwd : Path.isAbsolute "/w" = true := by decide +kernel
  have htag : '/' ∉ ({} : Settings).installer.platformTag.toList := by decide
  have hbefore : r.WritesNothingFor (callsBeforeCompiler c) := fun _ _ _ => rfl
  have hafter : r.WritesNothingFor (callsAfterCompiler c) := fun _ _ _ => rfl
  have ht : m.files.Valid := by decide
  -- the stages do not reduce in the kernel: the signing is read off the definitions
  have hsigning : c.signing = none := by
    cases h : BuildConfiguration.signToolOf args env <;>
      simp [c, BuildConfiguration.configurationOf, BuildConfiguration.signingOf, h, args]
  have hreads : ReadsOutsideTemp c m.cwdLocation :=
    ⟨by decide +kernel, by decide +kernel, fun s hs => by simp [hsigning] at hs⟩
  exact ⟨hvalid, hcwd, htag, hbefore, hafter, ht, hreads,
    package_law hvalid hcwd htag hbefore hafter ht hreads⟩

/-- A platform tag with a separator can lead the published installer's path back to the
compiler's output: with the tag `/../../temp/installer/Output/Hone` and a directory
`installers/Hone-1.0-`, a validated packaging whose compiler leaves `setup` in `Output/Hone.exe`
publishes that very file, which the copy onto itself has emptied. -/
theorem package_tag_aliases_output :
    let args : ReleaseArgs :=
      { stage := "i", version := some "1.0", scriptDir := "/w/s", noSign := true }
    let env : ToolEnvironment := { installerCompilerOnPath := some "iscc" }
    let settings : Settings :=
      { installer := { platformTag := "/../../temp/installer/Output/Hone" } }
    let v : Version := ⟨1, 0, 0, "1.0", by decide, by decide, by decide⟩
    let t : FileTree := ⟨[(["w"], .directory), (["w", "s"], .directory),
      (["w", "s", "License.txt"], .file "license" false),
      (["w", "s", "Readme.html"], .file "readme" false),
      (["w", "s", "hone_1.0_release"], .directory),
      (["w", "s", "hone_1.0_release", "installers"], .directory),
      (["w", "s", "hone_1.0_release", "installers", "Hone-1.0-"], .directory)]⟩
    let c : BuildConfiguration :=
      ⟨v, ⟨false, true⟩, false, none, "/w/s", ⟨"/w/s/hone_1.0_release"⟩, "/w/s",
        some "iscc", settings⟩
    let output := ["w", "s", "hone_1.0_release", "temp", "installer", "Output", "Hone.exe"]
    let r : Runner := ⟨fun _ m => (.ok ⟨some 0⟩,
      { m with
        files := (m.files.put output.dropLast .directory).put output (.file "setup" false) })⟩
    let m : Machine := { files := t, cwd := "/w" }
    let run := (package c).run' r m
    BuildConfiguration.validate args env settings t "/w" = .ok c ∧
      (∀ cmd m', (r.run cmd m').2.files.get? output = some (.file "setup" false)) ∧
      run.1 = .ok [c.publishedInstaller] ∧ place m.cwdLocation c.publishedInstaller = output ∧
      run.2.files.get? output = some (.file "" false) := by
  -- the stages do not reduce in the kernel: validation is read off the definitions
  have hstages : StageSet.ofTokens "i" = ⟨false, true⟩ := by
    simp [StageSet.ofTokens, String.contains_char_eq]
  refine ⟨(BuildConfiguration.validate_eq_ok_iff _ _ _ _ _ _).2
      ⟨by cbv, by cbv, _, by cbv, ?_⟩,
    fun _ _ => get?_put_self _ (by simp), by decide +kernel⟩
  have htool : BuildConfiguration.signToolOf
      { stage := "i", version := some "1.0", scriptDir := "/w/s", noSign := true }
      { installerCompilerOnPath := some "iscc" } = none := by
    simp [BuildConfiguration.signToolOf, hstages]
  simp only [BuildConfiguration.configurationOf, BuildConfiguration.signingOf, htool,
    BuildConfiguration.compilerOf, hstages, BuildConfiguration.mk.injEq]
  and_intros <;> first | trivial | decide +kernel

end Packaging

end ReleaseBuild
