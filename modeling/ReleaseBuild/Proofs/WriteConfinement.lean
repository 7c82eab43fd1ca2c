import ReleaseBuild.Proofs.Confined
import ReleaseBuild.Proofs.Accepted
import ReleaseBuild.Proofs.VersionText
/-!
# Where a release writes

A release writes to its files in a few places only, apart from what the tools it runs write
themselves. Seen from the working directory, with `root` the place the build root names
(`BuildConfiguration.writeRegion`):

* it creates missing directories along the build root's path and the script directory's path,
  and the layout's directories inside the build root: `build_files/<arch>`,
  `debug_symbols/<arch>`, `installers` and `temp/installer`, with their parents inside it;
* it writes files at `version.h` in the script directory, directly inside each
  `build_files/<arch>` and `debug_symbols/<arch>`, and at the published installer, the entry
  `Hone-<version>-<platform>.exe` of `installers`;
* anything may happen strictly inside the staging area `temp/installer`, which is emptied and
  refilled, and which is itself never removed.

Nothing is removed anywhere else, no directory becomes a file and no file a directory.

The published installer's name is made of the version text and the settings' platform tag, and
neither is checked for separators. A platform tag such as `x/../../escaped` makes the published
path climb out of `installers`, and out of the build root, to wherever the tag leads; a tag such
as `x/y` makes it land below a subdirectory of `installers`. So the law holds exactly for tags
without a separator (`Release.run_writesWithin`); a validated configuration's version text is
digits and dots, so the version never breaks it (`Version.sep_not_mem_text`).

The proof follows the release's stages: each stage writes within any region that holds the
release's (`hR : c.writeRegion w ≤ R`) and is free where the tools write (`hW`), and the run is
their sequence.
-/

set_option autoImplicit false

namespace ReleaseBuild

open FileTree

theorem ArtifactCategory.validName_subdir (cat : ArtifactCategory) : ValidName cat.subdir := by
  cases cat <;> decide

theorem Architecture.validName_tag (arch : Architecture) : ValidName arch.tag := by
  cases arch <;> decide

/-! ## The region of a release -/

namespace BuildConfiguration

/-- The directories a release creates inside the build root, with their parents inside it: the
directory of each artifact kind and its subdirectory per architecture, the published installers'
directory and the installer staging area. -/
def layoutDirectories : List Location :=
  [["build_files"], ["build_files", "x86"], ["build_files", "x64"],
    ["debug_symbols"], ["debug_symbols", "x86"], ["debug_symbols", "x64"],
    ["installers"], ["temp"], ["temp", "installer"]]

/-- Where a release of the configuration may write, its paths read from the working directory
`w`. Directories may be created along the build root's and the script directory's paths and at
the layout's directories; files may be written at the version header, directly inside each
architecture's build-files and debug-symbols directories, and at the published installer; and
anything may happen strictly inside the installer staging area. -/
def writeRegion (c : BuildConfiguration) (w : Location) : Region where
  dirs := {loc | loc ∈ trace w c.buildRoot ∨ loc ∈ trace w c.scriptDir ∨
    ∃ sub ∈ layoutDirectories, loc = place w c.buildRoot ++ sub}
  files := {loc | loc = place w c.scriptDir ++ [Header.fileName] ∨
    (∃ arch ∈ Architecture.all, ∃ sub ∈ ["build_files", "debug_symbols"], ∃ n, ValidName n ∧
      loc = place w c.buildRoot ++ [sub, arch.tag, n]) ∨
    loc = place w c.buildRoot ++
      ["installers", Packaging.installerFileName c.version.text c.platformTag]}
  free := {loc | ∃ rest, rest ≠ [] ∧ loc = place w c.buildRoot ++ ["temp", "installer"] ++ rest}

end BuildConfiguration

/-! ## The layout's paths -/

namespace BuildLayout

variable (l : BuildLayout) (w : Location)

theorem place_artifactDir (cat : ArtifactCategory) (arch : Architecture) :
    place w (l.artifactDir cat arch) = place w l.root ++ [cat.subdir, arch.tag] :=
  place_joinAll (by simp [cat.validName_subdir, arch.validName_tag]) w l.root

theorem mem_trace_artifactDir {cat : ArtifactCategory} {arch : Architecture} {loc : Location}
    (h : loc ∈ trace w (l.artifactDir cat arch)) :
    loc ∈ trace w l.root ∨ loc = place w l.root ++ [cat.subdir] ∨
      loc = place w l.root ++ [cat.subdir, arch.tag] :=
  mem_trace_joinAll_pair cat.validName_subdir arch.validName_tag h

theorem place_installers : place w l.installers = place w l.root ++ ["installers"] :=
  place_join (by decide) w l.root

theorem mem_trace_installers {loc : Location} (h : loc ∈ trace w l.installers) :
    loc ∈ trace w l.root ∨ loc = place w l.root ++ ["installers"] :=
  mem_trace_join (by decide) h

theorem place_installerStaging :
    place w l.installerStaging = place w l.root ++ ["temp", "installer"] :=
  place_joinAll (by decide) w l.root

theorem mem_trace_installerStaging {loc : Location} (h : loc ∈ trace w l.installerStaging) :
    loc ∈ trace w l.root ∨ loc = place w l.root ++ ["temp"] ∨
      loc = place w l.root ++ ["temp", "installer"] :=
  mem_trace_joinAll_pair (by decide) (by decide) h

theorem place_installerStagingArch (arch : Architecture) :
    place w (l.installerStagingArch arch) = place w l.root ++ ["temp", "installer", arch.tag] := by
  rw [installerStagingArch, place_join arch.validName_tag, place_installerStaging]
  simp

theorem mem_trace_installerStagingArch {arch : Architecture} {loc : Location}
    (h : loc ∈ trace w (l.installerStagingArch arch)) :
    loc ∈ trace w l.installerStaging ∨ loc = place w l.root ++ ["temp", "installer", arch.tag] := by
  rcases mem_trace_join arch.validName_tag h with h | rfl
  · exact Or.inl h
  · right
    rw [place_installerStaging]
    simp

end BuildLayout

/-! ## What the region holds -/

namespace BuildConfiguration

section Members

variable {c : BuildConfiguration} {w : Location} {R : Region} (hR : c.writeRegion w ≤ R)
include hR

theorem dirs_of_mem_trace_buildRoot {loc : Location} (h : loc ∈ trace w c.layout.root) :
    loc ∈ R.dirs ∪ R.free :=
  Or.inl (hR.1 (Or.inl h))

theorem dirs_of_mem_trace_scriptDir {loc : Location} (h : loc ∈ trace w c.scriptDir) :
    loc ∈ R.dirs ∪ R.free :=
  Or.inl (hR.1 (Or.inr (Or.inl h)))

theorem dirs_of_layout {sub : Location} (h : sub ∈ layoutDirectories) :
    place w c.layout.root ++ sub ∈ R.dirs ∪ R.free :=
  Or.inl (hR.1 (Or.inr (Or.inr ⟨sub, h, rfl⟩)))

theorem free_of_staging {rest : Location} (h : rest ≠ []) :
    place w c.layout.root ++ ["temp", "installer"] ++ rest ∈ R.free :=
  hR.2.2 ⟨rest, h, rfl⟩

/-- A file directly inside an artifact directory of the build root. -/
theorem files_of_artifactDir (cat : ArtifactCategory) (arch : Architecture) {n : String}
    (hn : ValidName n) : place w (c.layout.artifactDir cat arch) ++ [n] ∈ R.files ∪ R.free := by
  rw [BuildLayout.place_artifactDir]
  have hsub : cat.subdir ∈ ["build_files", "debug_symbols"] := by cases cat <;> decide
  have harch : arch ∈ Architecture.all := by cases arch <;> decide
  exact Or.inl (hR.2.1 (Or.inr (Or.inl ⟨arch, harch, cat.subdir, hsub, n, hn, by simp [buildRoot]⟩)))

theorem files_of_header : place w c.scriptDir ++ [Header.fileName] ∈ R.files ∪ R.free :=
  Or.inl (hR.2.1 (Or.inl rfl))

theorem files_of_installer :
    place w c.layout.root ++ ["installers", Packaging.installerFileName c.version.text c.platformTag]
      ∈ R.files ∪ R.free :=
  Or.inl (hR.2.1 (Or.inr (Or.inr rfl)))

/-- The directories of an artifact directory's path are the build root's, then its own. -/
theorem dirs_of_mem_trace_artifactDir {cat : ArtifactCategory} {arch : Architecture}
    {loc : Location} (h : loc ∈ trace w (c.layout.artifactDir cat arch)) : loc ∈ R.dirs ∪ R.free := by
  rcases c.layout.mem_trace_artifactDir w h with h | rfl | rfl
  · exact dirs_of_mem_trace_buildRoot hR h
  · exact dirs_of_layout hR (by cases cat <;> decide)
  · exact dirs_of_layout hR (by cases cat <;> cases arch <;> decide)

theorem dirs_of_mem_trace_installerStaging {loc : Location}
    (h : loc ∈ trace w c.layout.installerStaging) : loc ∈ R.dirs ∪ R.free := by
  rcases c.layout.mem_trace_installerStaging w h with h | rfl | rfl
  · exact dirs_of_mem_trace_buildRoot hR h
  · exact dirs_of_layout hR (by decide)
  · exact dirs_of_layout hR (by decide)

/-- Anything inside the staging area is free, and so is the staging directory of each
architecture. -/
theorem free_of_installerStaging {n : String} :
    place w c.layout.installerStaging ++ [n] ∈ R.files ∪ R.free := by
  rw [BuildLayout.place_installerStaging]
  exact Or.inr (free_of_staging hR (List.cons_ne_nil n []))

theorem free_of_installerStagingArch (arch : Architecture) {n : String} :
    place w (c.layout.installerStagingArch arch) ++ [n] ∈ R.files ∪ R.free := by
  rw [BuildLayout.place_installerStagingArch]
  have h := free_of_staging hR (List.cons_ne_nil arch.tag [n])
  simp only [List.append_assoc, List.cons_append, List.nil_append] at h ⊢
  exact Or.inr h

/-- Everything below an entry of the staging area is free. -/
theorem free_of_prefix_installerStaging {n : String} {x : Location}
    (h : place w c.layout.installerStaging ++ [n] <+: x) : x ∈ R.free := by
  obtain ⟨t, rfl⟩ := h
  rw [BuildLayout.place_installerStaging, List.append_assoc]
  exact free_of_staging hR (by simp)

/-- The directories along an architecture's staging directory are the staging area's, then the
architecture's own, which is inside the staging area. -/
theorem dirs_of_mem_trace_installerStagingArch {arch : Architecture} {loc : Location}
    (h : loc ∈ trace w (c.layout.installerStagingArch arch)) : loc ∈ R.dirs ∪ R.free := by
  rcases c.layout.mem_trace_installerStagingArch w h with h | rfl
  · exact dirs_of_mem_trace_installerStaging hR h
  · exact Or.inr (by simpa using free_of_staging hR (List.cons_ne_nil arch.tag []))

theorem dirs_of_mem_trace_installers {loc : Location} (h : loc ∈ trace w c.layout.installers) :
    loc ∈ R.dirs ∪ R.free := by
  rcases c.layout.mem_trace_installers w h with h | rfl
  · exact dirs_of_mem_trace_buildRoot hR h
  · exact dirs_of_layout hR (by decide)

end Members

end BuildConfiguration

/-! ## The stages -/

section Stages

variable {r : Runner} {W : Set Location} (hr : r.WritesOnly W) {cwd : String} {R : Region}
  (hW : W ⊆ R.free) {c : BuildConfiguration} (hR : c.writeRegion (locationOf cwd) ≤ R)

/-- Copying a category's files writes only directly inside the destination. -/
theorem Staging.writesWithin_copyCategory [PatternSearch] (cat : ArtifactCategory)
    (srcDir dstDir : String)
    (hfiles : ∀ n, ValidName n → place (locationOf cwd) dstDir ++ [n] ∈ R.files ∪ R.free) :
    WritesWithin r cwd R (Staging.copyCategory cat srcDir dstDir) := by
  unfold Staging.copyCategory
  refine WritesWithin.get.bind fun m => ?_
  split
  · exact (WritesWithin.log _ _ _).bind fun _ => Files.writesWithin_copyMatching hfiles
  · exact Files.writesWithin_copyMatching hfiles

include hR in
/-- Staging an architecture's output writes into its two artifact directories only. -/
theorem Building.writesWithin_stageArchitecture (arch : Architecture) :
    WritesWithin r cwd R (Building.stageArchitecture c arch) := by
  unfold Building.stageArchitecture Staging.stageArchitecture Staging.copyExecutables
    Staging.copyDriverImages Staging.copyDebugSymbols BuildLayout.buildFiles
    BuildLayout.debugSymbols
  have hdirs (cat : ArtifactCategory) :
      ∀ loc ∈ trace (locationOf cwd) (c.layout.artifactDir cat arch), loc ∈ R.dirs ∪ R.free :=
    fun _ h => BuildConfiguration.dirs_of_mem_trace_artifactDir hR h
  have hfiles (cat : ArtifactCategory) (n : String) (hn : ValidName n) :=
    BuildConfiguration.files_of_artifactDir hR cat arch hn
  refine (Files.writesWithin_ensureDir (hdirs .executable)).bind fun _ => ?_
  refine (Files.writesWithin_ensureDir (hdirs .debugSymbol)).bind fun _ => ?_
  refine (WritesWithin.log _ _ _).bind fun _ => WritesWithin.forM fun project _ => ?_
  -- executables and driver images share the build-files directory
  exact (Staging.writesWithin_copyCategory _ _ _ (hfiles .executable)).bind fun _ =>
    (Staging.writesWithin_copyCategory _ _ _ (hfiles .executable)).bind fun _ =>
    (Staging.writesWithin_copyCategory _ _ _ (hfiles .debugSymbol)).bind fun _ =>
    WritesWithin.pure _

include hr hW hR in
theorem Building.writesWithin_buildAll : WritesWithin r cwd R (Building.buildAll c) := by
  unfold Building.buildAll Building.buildArchitecture
  refine WritesWithin.forM fun arch _ => ?_
  exact ((WritesWithin.log _ _ _).bind fun _ => WritesWithin.runChecked hr hW _ _).bind fun _ =>
    Building.writesWithin_stageArchitecture hR arch

include hR in
/-- The version header is the one file written in the script directory. -/
theorem Release.writesWithin_writeVersionHeader (now : Timestamp) :
    WritesWithin r cwd R (Release.writeVersionHeader c.scriptDir c.version now) := by
  unfold Release.writeVersionHeader
  have hname : ValidName Header.fileName := by decide
  refine (WritesWithin.log _ _ _).bind fun _ => ?_
  exact (Files.writesWithin_writeString_join hname
    (fun _ h => BuildConfiguration.dirs_of_mem_trace_scriptDir hR h)
    (BuildConfiguration.files_of_header hR)).bind fun _ => WritesWithin.pure _

include hr hW hR in
theorem Release.writesWithin_build (now : Timestamp) : WritesWithin r cwd R (Release.build c now) := by
  unfold Release.build
  refine (WritesWithin.log _ _ _).bind fun _ => ?_
  refine (Files.writesWithin_ensureDir
    fun _ h => BuildConfiguration.dirs_of_mem_trace_buildRoot hR h).bind fun _ => ?_
  exact (Release.writesWithin_writeVersionHeader hR now).bind fun _ =>
    Building.writesWithin_buildAll hr hW hR

include hr hW in
theorem Signing.writesWithin_tryServers (s : SigningConfig) (file : String)
    (servers : List String) : WritesWithin r cwd R (Signing.tryServers s file servers) := by
  induction servers with
  | nil => exact WritesWithin.pure _
  | cons server rest ih =>
    unfold Signing.tryServers
    refine (WritesWithin.log _ _ _).bind fun _ =>
      (WritesWithin.runTool hr hW _ _).bind fun status => ?_
    split
    · exact WritesWithin.pure _
    · exact (WritesWithin.log _ _ _).bind fun _ => ih

include hr hW in
/-- Signing writes only what the signing tool writes. -/
theorem Signing.writesWithin_signAndTimestamp (s : SigningConfig) (servers : List String)
    (file : String) : WritesWithin r cwd R (Signing.signAndTimestamp s servers file) := by
  unfold Signing.signAndTimestamp Signing.sign Signing.timestamp
  refine ((WritesWithin.log _ _ _).bind fun _ => WritesWithin.runChecked hr hW _ _).bind
    fun _ => (Signing.writesWithin_tryServers hr hW s file servers).bind fun _ => ?_
  split
  · exact WritesWithin.fail _
  · exact WritesWithin.pure _

/-- The published installer's name is a single entry when neither the version nor the platform
tag holds a separator. -/
theorem Packaging.validName_installerFileName {version tag : String}
    (hversion : '/' ∉ version.toList) (htag : '/' ∉ tag.toList) :
    ValidName (Packaging.installerFileName version tag) := by
  have hlist : (Packaging.installerFileName version tag).toList =
      'H' :: ("one-".toList ++ version.toList ++ '-' :: tag.toList ++ ".exe".toList) := by
    simp [Packaging.installerFileName]
  refine validName_of_toList_eq_cons hlist (by decide) ?_
  rw [hlist]
  simp [hversion, htag]

include hR in
/-- Preparing the staging area writes inside it only, creating it first. -/
theorem Packaging.writesWithin_prepareStaging :
    WritesWithin r cwd R (Packaging.prepareStaging c c.layout.installerStaging) := by
  unfold Packaging.prepareStaging Staging.copyDriverImages Staging.copyExecutables
  have hfiles (n : String) (_ : ValidName n) :=
    BuildConfiguration.free_of_installerStaging (n := n) hR
  refine (WritesWithin.log _ _ _).bind fun _ => ?_
  refine (Files.writesWithin_resetDirectory
    (fun _ h => BuildConfiguration.dirs_of_mem_trace_installerStaging hR h)
    fun _ _ _ h => BuildConfiguration.free_of_prefix_installerStaging hR h).bind fun _ => ?_
  refine (WritesWithin.forM fun arch _ => ?_).bind fun _ => ?_
  · exact (Files.writesWithin_ensureDir
      fun _ h => BuildConfiguration.dirs_of_mem_trace_installerStagingArch hR h).bind fun _ =>
      (Staging.writesWithin_copyCategory _ _ _
        fun n _ => BuildConfiguration.free_of_installerStagingArch hR arch (n := n)).bind
      fun _ => WritesWithin.pure _
  refine (Staging.writesWithin_copyCategory _ _ _ hfiles).bind fun _ => ?_
  refine (Files.writesWithin_copyAll hfiles).bind fun _ => ?_
  refine (WritesWithin.forM fun name _ =>
    (Files.writesWithin_copyFile hfiles).bind fun _ => WritesWithin.pure _).bind fun _ => ?_
  -- the version file is one more entry of the staging area
  have hname : ValidName Packaging.versionFile := by decide
  have hversion : WritesWithin r cwd R (Files.writeString
      (Path.join c.layout.installerStaging Packaging.versionFile)
      (Packaging.renderInstallerVersion c.version.text)) :=
    Files.writesWithin_writeString_join hname
      (fun _ h => BuildConfiguration.dirs_of_mem_trace_installerStaging hR h) (hfiles _ hname)
  cases c.signing with
  | none => exact hversion
  | some s => exact (Files.writesWithin_copyFile hfiles).bind fun _ => hversion

include hr hW hR in
/-- The compiler runs as a tool; the installer is then published at its one place. -/
theorem Packaging.writesWithin_compileInstaller (htag : '/' ∉ c.platformTag.toList)
    (hversion : '/' ∉ c.version.text.toList) :
    WritesWithin r cwd R (Packaging.compileInstaller c c.layout.installerStaging) := by
  unfold Packaging.compileInstaller
  have hname := Packaging.validName_installerFileName hversion htag
  cases c.installerCompiler with
  | none => exact WritesWithin.fail _
  | some compiler =>
    refine (WritesWithin.log _ _ _).bind fun _ =>
      (WritesWithin.runChecked hr hW _ _).bind fun _ => ?_
    refine (Files.writesWithin_ensureDir
      fun _ h => BuildConfiguration.dirs_of_mem_trace_installers hR h).bind fun _ => ?_
    refine (Files.writesWithin_copyTo ?_).bind fun _ =>
      (WritesWithin.log _ _ _).bind fun _ => WritesWithin.pure _
    rw [place_join hname, BuildLayout.place_installers, List.append_assoc]
    exact BuildConfiguration.files_of_installer hR

include hr hW hR in
theorem Packaging.writesWithin_package (htag : '/' ∉ c.platformTag.toList)
    (hversion : '/' ∉ c.version.text.toList) :
    WritesWithin r cwd R (Packaging.package c) := by
  unfold Packaging.package
  simp only []
  refine WritesWithin.get.bind fun m => ?_
  split
  · exact WritesWithin.fail_bind _ _
  refine (Packaging.writesWithin_prepareStaging hR).bind fun _ => ?_
  have hcompile := Packaging.writesWithin_compileInstaller hr hW hR htag hversion
  cases c.signing with
  | none => exact hcompile.bind fun _ => WritesWithin.pure _
  | some s =>
    have hsign (file : String) :
        WritesWithin r cwd R (Signing.signAndTimestamp s c.timestampServers file) :=
      Signing.writesWithin_signAndTimestamp hr hW s c.timestampServers file
    exact (WritesWithin.forM fun arch _ => hsign _).bind fun _ =>
      hcompile.bind fun installer => (hsign installer).bind fun _ => WritesWithin.pure _

end Stages

/-! ## A release -/

/-- **Write confinement of a release.** When neither the platform tag nor the version text holds
a separator, a release run from any machine whose tree is validly named changes the tree only as
`BuildConfiguration.writeRegion` allows, apart from where the runner's tools write. -/
theorem Release.run_writesWithin (c : BuildConfiguration) (now : Timestamp) {W : Set Location}
    {r : Runner} (hr : r.WritesOnly W) (htag : '/' ∉ c.platformTag.toList)
    (hversion : '/' ∉ c.version.text.toList) (cwd : String) :
    WritesWithin r cwd (c.writeRegion (locationOf cwd) ∪ { free := W }) (Release.run c now) := by
  have hR := Region.le_union_left (c.writeRegion (locationOf cwd)) { free := W }
  have hW : W ⊆ (c.writeRegion (locationOf cwd) ∪ { free := W }).free := by simp
  have hpackage : WritesWithin r cwd (c.writeRegion (locationOf cwd) ∪ { free := W })
      (if c.stages.package then Packaging.package c else pure []) := by
    split
    · exact Packaging.writesWithin_package hr hW hR htag hversion
    · exact WritesWithin.pure _
  unfold Release.run
  simp only []
  split
  · exact (Release.writesWithin_build hr hW hR now).bind fun _ => hpackage
  · exact hpackage

/-! ## Validated configurations -/

namespace Version

theorem DigitRun.sep_not_mem {cs : List Char} (h : DigitRun cs) : '/' ∉ cs := by
  intro hsep
  have := h.2 '/' hsep
  simp [Char.le_def] at this

theorem Written.sep_not_mem {s : String} {a b : Nat} {c : Option Nat} (h : Written s a b c) :
    '/' ∉ s.toList := by
  cases h with
  | two hM hN hs => simp [hs, hM.sep_not_mem, hN.sep_not_mem]
  | three hM hN hB hs => simp [hs, hM.sep_not_mem, hN.sep_not_mem, hB.sep_not_mem]

/-- A version that was read keeps its text, which is digits and dots only. -/
theorem sep_not_mem_text {s : String} {v : Version} (h : parse s = .ok v) :
    '/' ∉ v.text.toList := by
  obtain ⟨htext, build, hw, -⟩ := (parse_eq_ok_iff s v).1 h
  rw [htext]
  exact hw.sep_not_mem

end Version

namespace BuildConfiguration

variable {args : ReleaseArgs} {env : ToolEnvironment} {settings : Settings} {tree : FileTree}
  {cwd : String} {c : BuildConfiguration}

/-- A validated configuration's version was read from the arguments, and its platform tag is the
settings'. -/
theorem sep_not_mem_version_of_validate (h : validate args env settings tree cwd = .ok c) :
    '/' ∉ c.version.text.toList ∧ c.platformTag = settings.installer.platformTag := by
  obtain ⟨-, -, v, hv, rfl⟩ := (validate_eq_ok_iff args env settings tree cwd c).1 h
  obtain ⟨text, -, hparse⟩ := (versionOf_fst_eq_some_iff _ _).1 hv
  exact ⟨Version.sep_not_mem_text hparse, rfl⟩

end BuildConfiguration

/-- **Write confinement of a validated release.** A release of a configuration that validation
accepted, from the working directory it was validated in, with settings whose platform tag holds
no separator, changes a validly named tree only where `BuildConfiguration.writeRegion` says, apart
from where the runner's tools write: it makes directories along the build root's and the script
directory's paths and the layout's directories, writes the version header, the staged artifacts
and the published installer, and may change anything strictly inside the staging area; it
removes nothing else, turns no directory into a file and no file into a directory, and keeps the
working directory. -/
theorem Release.run_confined {args : ReleaseArgs} {env : ToolEnvironment} {settings : Settings}
    {tree : FileTree} {cwd : String} {c : BuildConfiguration}
    (hvalid : BuildConfiguration.validate args env settings tree cwd = .ok c)
    (htag : '/' ∉ settings.installer.platformTag.toList) {W : Set Location} {r : Runner}
    (hr : r.WritesOnly W) (now : Timestamp) :
    WritesWithin r cwd (c.writeRegion (locationOf cwd) ∪ { free := W }) (Release.run c now) := by
  obtain ⟨hversion, hplatform⟩ := BuildConfiguration.sep_not_mem_version_of_validate hvalid
  exact Release.run_writesWithin c now hr (hplatform ▸ htag) hversion cwd

/-- A release of every stage, packaging included, without signing, validated from `/w` with the
installer compiler on the search path and a runner whose tools change nothing. -/
theorem Release.run_confined_allStages :
    let args : ReleaseArgs :=
      { stage := "a", version := some "1.0", scriptDir := "/s", noSign := true }
    let env : ToolEnvironment := { installerCompilerOnPath := some "iscc" }
    let c := BuildConfiguration.configurationOf args env {} {} "/w"
      ⟨1, 0, 0, "1.0", by decide, by decide, by decide⟩
    let r : Runner := ⟨fun _ m => (.ok ⟨some 0⟩, m)⟩
    BuildConfiguration.validate args env {} {} "/w" = .ok c ∧ c.stages.package = true ∧
      '/' ∉ ({} : Settings).installer.platformTag.toList ∧ r.WritesOnly ∅ ∧
      ∀ now, WritesWithin r "/w" (c.writeRegion (locationOf "/w") ∪ { free := ∅ })
        (Release.run c now) := by
  intro args env c r
  have hvalid : BuildConfiguration.validate args env {} {} "/w" = .ok c :=
    (BuildConfiguration.validate_eq_ok_iff args env {} {} "/w" c).2 ⟨by cbv, by cbv, _, by cbv, rfl⟩
  -- the stages do not reduce in the kernel: they are read off the definitions
  have hpackage : c.stages.package = true := by
    simp [c, BuildConfiguration.configurationOf, args, StageSet.ofTokens, String.contains_char_eq,
      StageSet.all]
  have htag : '/' ∉ ({} : Settings).installer.platformTag.toList := by decide
  have hr : r.WritesOnly ∅ := ⟨fun _ _ => rfl, fun _ m => Within.refl _ m.files⟩
  exact ⟨hvalid, hpackage, htag, hr, Release.run_confined hvalid htag hr⟩

/-- With the platform tag `x/../../../escaped`, the installer published from the build root
`/w/out/hone_1.0_release` lands at `/w/out/escaped.exe`, outside the build root. -/
theorem Packaging.installer_escapes_buildRoot :
    place (locationOf "/w") (Path.join (BuildLayout.installers ⟨"/w/out/hone_1.0_release"⟩)
        (Packaging.installerFileName "1.0" "x/../../../escaped")) = ["w", "out", "escaped.exe"] ∧
      ¬ place (locationOf "/w") "/w/out/hone_1.0_release" <+: ["w", "out", "escaped.exe"] := by
  decide +kernel

end ReleaseBuild
