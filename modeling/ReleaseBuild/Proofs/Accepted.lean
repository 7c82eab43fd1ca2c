import ReleaseBuild.Proofs.Validation
import ReleaseBuild.Proofs.Run
/-!
# What an accepted configuration holds

A configuration that validation accepted is fully resolved. `Accepted` lists what it holds, in
terms of the arguments, the tool environment and the settings it came from: the stages its
specification names, a version within the bounds of its resource, an installer compiler exactly
when it packages, a complete signer exactly when it packages with signing on, and directories
made absolute, the build root being named for the version and the build type.

The packaging stage relies on this. It stops for a missing compiler only when the configuration
has none, and an accepted configuration has none only when it does not package, so then it does
not sign either: `validate_accepted` adds that packaging an accepted configuration never stops for
a missing compiler when it was asked for, and that whenever it does stop so, it has run no tool.
-/

set_option autoImplicit false

namespace ReleaseBuild

/-! ## Absolute paths -/

namespace Path

theorem isAbsolute_append {s : String} (t : String) (h : isAbsolute s = true) :
    isAbsolute (s ++ t) = true := by
  simp only [isAbsolute, String.startsWith_string_iff, String.toList_append] at h ⊢
  exact h.trans (List.prefix_append _ _)

theorem isAbsolute_join {base : String} (rel : String) (h : isAbsolute base = true) :
    isAbsolute (join base rel) = true := by
  unfold join
  split
  · assumption
  · split
    · exact isAbsolute_append rel h
    · exact isAbsolute_append rel (isAbsolute_append "/" h)

theorem isAbsolute_joinAll {base : String} (parts : List String) (h : isAbsolute base = true) :
    isAbsolute (joinAll base parts) = true := by
  induction parts generalizing base with
  | nil => exact h
  | cons part rest ih => exact ih (isAbsolute_join part h)

/-- Seen from an absolute directory, the absolute form of a path is absolute. -/
theorem isAbsolute_of_absolute_eq_ok {cwd p q : String} (hcwd : isAbsolute cwd = true)
    (h : absolute cwd p = .ok q) : isAbsolute q = true := by
  unfold absolute at h
  split at h
  · cases h
  · dsimp only at h
    injection h with h
    subst h
    -- the path is rebuilt on a base, and a trailing separator it had is put back
    have hend (base : String) (hb : isAbsolute base = true) :
        isAbsolute (if (p.endsWith "/" &&
            !(joinAll base ((components p).filterMap pushText)).endsWith "/") = true then
          joinAll base ((components p).filterMap pushText) ++ "/"
        else joinAll base ((components p).filterMap pushText)) = true := by
      split
      · exact isAbsolute_append "/" (isAbsolute_joinAll _ hb)
      · exact isAbsolute_joinAll _ hb
    -- the base is the root for an absolute path, and `cwd` for a relative one
    split
    · apply hend
      split <;> simp [isAbsolute]
    · exact hend cwd hcwd

end Path

theorem BuildType.profile_ofDebug (debug : Bool) :
    (BuildType.ofDebug debug).profile = if debug then "debug" else "release" := by
  cases debug <;> rfl

namespace BuildConfiguration

/-! ## The pieces of an accepted configuration -/

theorem versionOf_fst_eq_some_iff (text : Option String) (v : Version) :
    (versionOf text).1 = some v ↔ ∃ t, text = some t ∧ Version.parse t = .ok v := by
  unfold versionOf
  cases text with
  | none => simp
  | some t =>
    dsimp only
    cases h : Version.parse t <;> simp [h]

theorem absolutize_of_absolute_eq_ok {cwd what path dir : String}
    (h : Path.absolute cwd path = .ok dir) : absolutize cwd what path = (dir, []) := by
  simp [absolutize, h]

section Parts

variable (args : ReleaseArgs) (env : ToolEnvironment) (settings : Settings) (tree : FileTree)
  (cwd : String)

/-- The signing tool validation resolves is the driver kit's, and only when packaging signs. -/
theorem signToolOf_eq_some_iff (tool : String) :
    signToolOf args env = some tool ↔
      (StageSet.ofTokens args.stage).package = true ∧ args.noSign = false ∧
        ∃ wdk, env.wdkPath = some wdk ∧ Path.joinAll wdk ["bin", "x86", "signtool"] = tool := by
  unfold signToolOf ToolEnvironment.signTool
  cases (StageSet.ofTokens args.stage).package <;> cases args.noSign <;> simp [Option.map_eq_some_iff]

/-- A signer of the second phase is the resolved tool with the certificate made absolute and the
password as given. -/
theorem signingOf_fst_eq_some {s : SigningConfig} (h : (signingOf args env cwd).1 = some s) :
    ∃ tool cert, signToolOf args env = some tool ∧ args.certFile = some cert ∧
      s = ⟨tool, (absolutize cwd "certificate" cert).1, args.certPass⟩ := by
  unfold signingOf at h
  split at h
  · rename_i tool cert htool hcert
    cases h
    exact ⟨tool, cert, htool, hcert, rfl⟩
  · cases h

end Parts

/-! ## The parts, once the rules pass -/

namespace RulesPass

variable {args : ReleaseArgs} {env : ToolEnvironment} {settings : Settings} {tree : FileTree}
  {cwd : String} (hpass : RulesPass args env settings tree cwd)
include hpass

/-- A compiler is resolved exactly when packaging. -/
theorem compilerOf_isSome :
    (compilerOf args env tree cwd).isSome = (StageSet.ofTokens args.stage).package := by
  unfold compilerOf
  cases hp : (StageSet.ofTokens args.stage).package
  · rfl
  · simpa [Option.isSome_iff_ne_none] using hpass.compiler ((StageSet.ofTokens_package _).1 hp)

/-- A signer is resolved exactly when packaging signs. -/
theorem signingOf_isSome :
    (signingOf args env cwd).1.isSome =
      ((StageSet.ofTokens args.stage).package && !args.noSign) := by
  cases hsign : ((StageSet.ofTokens args.stage).package && !args.noSign)
  · -- without packaging with signing on there is no signing tool, so no signer
    cases hs : (signingOf args env cwd).1 with
    | none => rfl
    | some s =>
      obtain ⟨tool, -, htool, -⟩ := signingOf_fst_eq_some args env cwd hs
      obtain ⟨hp, hn, -⟩ := (signToolOf_eq_some_iff args env tool).1 htool
      simp [hp, hn] at hsign
  · -- packaging signs, so the rules gave a driver kit and a certificate
    obtain ⟨hp, hn⟩ : (StageSet.ofTokens args.stage).package = true ∧ args.noSign = false := by
      simpa using hsign
    obtain ⟨hkit, hcertFile, -⟩ := hpass.signing ((StageSet.ofTokens_package _).1 hp) hn
    obtain ⟨wdk, hwdk⟩ := Option.ne_none_iff_exists'.1 hkit
    obtain ⟨cert, hc⟩ := Option.ne_none_iff_exists'.1 hcertFile
    have htool := (signToolOf_eq_some_iff args env _).2 ⟨hp, hn, wdk, hwdk, rfl⟩
    simp [signingOf, htool, hc]

/-- A signer whose certificate passed the second phase is the driver kit's signing tool with
the certificate made absolute and the password as given; and since packaging signs, the rules
saw timestamp servers. -/
theorem signer (hcert : (signingOf args env cwd).2 = []) {s : SigningConfig}
    (hs : (signingOf args env cwd).1 = some s) :
    (∃ wdk, env.wdkPath = some wdk ∧ s.signTool = Path.joinAll wdk ["bin", "x86", "signtool"]) ∧
      (∃ cert, args.certFile = some cert ∧ Path.absolute cwd cert = .ok s.certificate) ∧
      s.password = args.certPass ∧ settings.signing.timestampServers ≠ [] := by
  obtain ⟨tool, cert, htool, hc, rfl⟩ := signingOf_fst_eq_some args env cwd hs
  obtain ⟨hp, hn, wdk, hwdk, rfl⟩ := (signToolOf_eq_some_iff args env tool).1 htool
  obtain ⟨-, -, hservers⟩ := hpass.signing ((StageSet.ofTokens_package _).1 hp) hn
  -- the certificate passed the second phase, so it has an absolute form
  have hcertOk : (absolutize cwd "certificate" cert).2 = [] := by
    simpa [signingOf, htool, hc] using hcert
  refine ⟨⟨wdk, hwdk, rfl⟩, ⟨cert, hc, ?_⟩, rfl, hservers⟩
  unfold absolutize at hcertOk ⊢
  cases habs : Path.absolute cwd cert <;> simp_all

/-- The output root is the output directory made absolute, or the script directory. -/
theorem outputOf_fst :
    match args.output with
    | some dir => Path.absolute cwd dir = .ok (outputOf args cwd).1
    | none => (outputOf args cwd).1 = (absolutize cwd "script" args.scriptDir).1 := by
  cases ho : args.output with
  | none => simp [outputOf, ho]
  | some dir =>
    obtain ⟨dir', hdir⟩ := hpass.output dir ho
    simp [outputOf, ho, absolutize_of_absolute_eq_ok hdir, hdir]

end RulesPass

/-! ## Accepted configurations -/

section Accepted

variable (args : ReleaseArgs) (env : ToolEnvironment) (settings : Settings) (tree : FileTree)
  (cwd : String)

/-- What a configuration that validation accepted holds, in terms of the arguments, the tool
environment and the settings it was validated against. -/
structure Accepted (c : BuildConfiguration) : Prop where
  tokens : ∀ ch ∈ args.stage.toList, ch = 'a' ∨ ch = 'b' ∨ ch = 'i'
  build_iff : c.stages.build = true ↔ 'a' ∈ args.stage.toList ∨ 'b' ∈ args.stage.toList
  package_iff : c.stages.package = true ↔ 'a' ∈ args.stage.toList ∨ 'i' ∈ args.stage.toList
  version : ∃ text, args.version = some text ∧ Version.parse text = .ok c.version
  major_le : c.version.major ≤ 255
  minor_le : c.version.minor ≤ 255
  build_le : c.version.build ≤ 65535
  /-- The compiler under the first Program Files directory that holds it as a file, else the one
  on the search path; and none when not packaging. -/
  compiler : c.installerCompiler =
    if c.stages.package then
      ((env.programFiles.find? fun p =>
        tree.isFile? (FileTree.locationOf cwd) (ToolEnvironment.compilerUnder p)).map
          ToolEnvironment.compilerUnder).or env.installerCompilerOnPath
    else none
  compiler_isSome : c.installerCompiler.isSome = c.stages.package
  signing_isSome : c.signing.isSome = (c.stages.package && !args.noSign)
  signing : ∀ s, c.signing = some s →
    (∃ wdk, env.wdkPath = some wdk ∧ s.signTool = Path.joinAll wdk ["bin", "x86", "signtool"]) ∧
    (∃ cert, args.certFile = some cert ∧ Path.absolute cwd cert = .ok s.certificate) ∧
    s.password = args.certPass ∧ c.timestampServers ≠ []
  scriptDir : Path.absolute cwd args.scriptDir = .ok c.scriptDir
  scriptDir_absolute : Path.isAbsolute c.scriptDir = true
  outputRoot :
    match args.output with
    | some dir => Path.absolute cwd dir = .ok c.outputRoot
    | none => c.outputRoot = c.scriptDir
  debug : c.debug = args.debug
  settings : c.settings = settings
  buildRoot : c.buildRoot =
    Path.join c.outputRoot ("hone_" ++ c.version.text ++ "_" ++ if c.debug then "debug" else "release")

theorem accepted_of_validate_eq_ok {c : BuildConfiguration}
    (h : validate args env settings tree cwd = .ok c) (hcwd : Path.isAbsolute cwd = true) :
    Accepted args env settings tree cwd c := by
  obtain ⟨hproblems, hcert, v, hv, rfl⟩ := (validate_eq_ok_iff args env settings tree cwd c).1 h
  have hpass := RulesPass.of_ruleProblems_eq_nil args env settings tree cwd
    ((problems_eq_ruleProblems args env settings tree cwd).symm.trans hproblems)
  obtain ⟨scriptDir, hscript⟩ := hpass.scriptDir
  have hscriptDir : absolutize cwd "script" args.scriptDir = (scriptDir, []) :=
    absolutize_of_absolute_eq_ok hscript
  refine ⟨hpass.tokens, StageSet.ofTokens_build _, StageSet.ofTokens_package _,
    (versionOf_fst_eq_some_iff _ _).1 hv, Nat.le_of_lt_succ v.major_lt,
    Nat.le_of_lt_succ v.minor_lt, Nat.le_of_lt_succ v.build_lt, ?compiler,
    hpass.compilerOf_isSome, hpass.signingOf_isSome, fun s hs => hpass.signer hcert hs, ?scriptDir,
    ?absolute, ?outputRoot, rfl, rfl, ?buildRoot⟩
  case compiler =>
    simp only [configurationOf, compilerOf, ToolEnvironment.findInstallerCompiler_eq]
  case scriptDir => simpa [configurationOf, hscriptDir] using hscript
  case absolute =>
    simpa [configurationOf, hscriptDir] using Path.isAbsolute_of_absolute_eq_ok hcwd hscript
  case outputRoot => simpa [configurationOf, hscriptDir] using hpass.outputOf_fst
  case buildRoot => simp [configurationOf, buildRoot, buildRootName, BuildType.profile_ofDebug]

end Accepted

end BuildConfiguration

/-! ## What packaging fails with -/

namespace Failure

theorem ne_missingInstallerCompiler_of_isFileFailure {f : Failure} (h : f.isFileFailure = true) :
    f ≠ .missingInstallerCompiler := by
  rintro rfl
  cases h

theorem ne_missingInstallerCompiler_of_isToolFailure {f : Failure} (h : f.isToolFailure = true) :
    f ≠ .missingInstallerCompiler := by
  rintro rfl
  cases h

end Failure

theorem Quiet.failsOnly_ne_missingInstallerCompiler {α : Type} {x : ReleaseM α} (h : Quiet x) :
    FailsOnly x (· ≠ .missingInstallerCompiler) :=
  h.failsOnly.mono fun _ => Failure.ne_missingInstallerCompiler_of_isFileFailure

namespace Signing

theorem failsOnly_tryServers (s : SigningConfig) (file : String) (servers : List String) :
    FailsOnly (tryServers s file servers) fun f => f.isToolFailure = true := by
  induction servers with
  | nil => exact FailsOnly.pure _
  | cons server rest ih =>
    unfold tryServers
    refine (FailsOnly.log _ _ _).bind fun _ => (FailsOnly.runTool _ _).bind fun status => ?_
    split
    · exact FailsOnly.pure _
    · exact (FailsOnly.log _ _ _).bind fun _ => ih

/-- Signing and timestamping a file fails only for a tool's reason. -/
theorem failsOnly_signAndTimestamp (s : SigningConfig) (servers : List String) (file : String) :
    FailsOnly (signAndTimestamp s servers file) fun f => f.isToolFailure = true := by
  unfold signAndTimestamp sign timestamp
  refine ((FailsOnly.log _ _ _).bind fun _ => FailsOnly.runChecked _ _).bind fun _ => ?_
  refine (failsOnly_tryServers s file servers).bind fun _ => ?_
  split
  · exact FailsOnly.fail rfl
  · exact FailsOnly.pure _

end Signing

namespace Packaging

theorem failsOnly_compileInstaller (c : BuildConfiguration) (staging : String)
    (hc : c.installerCompiler ≠ none) :
    FailsOnly (compileInstaller c staging) (· ≠ .missingInstallerCompiler) := by
  obtain ⟨compiler, hcompiler⟩ := Option.ne_none_iff_exists'.1 hc
  unfold compileInstaller
  simp only [hcompiler]
  refine (FailsOnly.log _ _ _).bind fun _ => ?_
  refine ((FailsOnly.runChecked _ _).mono
    fun _ => Failure.ne_missingInstallerCompiler_of_isToolFailure).bind fun _ => ?_
  exact (Files.quiet_ensureDir _).failsOnly_ne_missingInstallerCompiler.bind fun _ =>
    (Files.quiet_copyTo _ _).failsOnly_ne_missingInstallerCompiler.bind fun _ =>
    (FailsOnly.log _ _ _).bind fun _ => FailsOnly.pure _

/-- With a compiler, packaging never stops for the lack of one. -/
theorem failsOnly_package (c : BuildConfiguration) (hc : c.installerCompiler ≠ none) :
    FailsOnly (package c) (· ≠ .missingInstallerCompiler) := by
  unfold package
  simp only []
  refine Quiet.get.failsOnly_ne_missingInstallerCompiler.bind fun m => ?_
  -- a missing build root stops packaging for its own reason
  split
  · exact FailsOnly.fail_bind (by simp) _
  refine (quiet_prepareStaging c _).failsOnly_ne_missingInstallerCompiler.bind fun _ => ?_
  cases c.signing with
  | none => exact (failsOnly_compileInstaller c _ hc).bind fun _ => FailsOnly.pure _
  | some s =>
    -- the signer fails only for a tool's reason, before and after the compiler
    have hsign (file : String) := (Signing.failsOnly_signAndTimestamp s c.timestampServers file).mono
      fun _ => Failure.ne_missingInstallerCompiler_of_isToolFailure
    exact (FailsOnly.forM fun arch _ => hsign _).bind fun _ =>
      (failsOnly_compileInstaller c _ hc).bind fun installer =>
      (hsign installer).bind fun _ => FailsOnly.pure _

/-- Without a signer and without a compiler, packaging runs no tool: it stops before the
compiler. -/
theorem silent_package (c : BuildConfiguration) (hs : c.signing = none)
    (hc : c.installerCompiler = none) : Silent (package c) := by
  unfold package compileInstaller
  -- with neither, the steps left before the compiler's failure only touch files
  simp only [hs, hc]
  refine Quiet.get.silent.bind fun m => ?_
  split
  · exact Silent.fail_bind _ _
  · exact (quiet_prepareStaging c _).silent.bind fun _ => Silent.fail_bind _ _

end Packaging

/-! ## Packaging an accepted configuration -/

namespace BuildConfiguration

variable (args : ReleaseArgs) (env : ToolEnvironment) (settings : Settings) (tree : FileTree)
  (cwd : String)

/-- **Accepted configurations.** A configuration that validation accepted, seen from an absolute
working directory, holds everything `Accepted` lists. Packaging it never stops for a missing
installer compiler when the configuration packages; and whenever it does stop so, it has run no
tool, since a configuration without a compiler does not sign either. -/
theorem validate_accepted {c : BuildConfiguration}
    (h : validate args env settings tree cwd = .ok c) (hcwd : Path.isAbsolute cwd = true) :
    Accepted args env settings tree cwd c ∧
      (c.stages.package = true → ∀ (r : Runner) (m : Machine),
        ((Packaging.package c).run' r m).1 ≠ .error .missingInstallerCompiler) ∧
      (∀ (r : Runner) (m : Machine),
        ((Packaging.package c).run' r.recording m).1 = .error .missingInstallerCompiler →
        ((Packaging.package c).run' r.recording m).2.calls = m.calls) := by
  have hacc := accepted_of_validate_eq_ok args env settings tree cwd h hcwd
  have hcompiler (hc : c.installerCompiler ≠ none) (r : Runner) (m : Machine) :
      ((Packaging.package c).run' r m).1 ≠ .error .missingInstallerCompiler :=
    fun hfail => Packaging.failsOnly_package c hc r m _ hfail rfl
  refine ⟨hacc, fun hp => hcompiler ?_, fun r m hfail => ?_⟩
  · rw [← Option.isSome_iff_ne_none, hacc.compiler_isSome, hp]
  · -- it stopped so: there is no compiler, hence no packaging and no signer
    cases hc : c.installerCompiler with
    | some compiler => exact absurd hfail (hcompiler (by simp [hc]) _ _)
    | none =>
      have hp : c.stages.package = false := by
        rw [← hacc.compiler_isSome, hc, Option.isSome_none]
      have hs : c.signing = none := by
        simpa [hp] using hacc.signing_isSome
      exact Packaging.silent_package c hs hc _ m

/-- A build-only run with signing off, its script directory given as an absolute path. -/
theorem validate_accepted_buildOnly :
    let args : ReleaseArgs :=
      { stage := "b", version := some "1.0", scriptDir := "/s", noSign := true }
    let c := configurationOf args {} {} {} "/w" ⟨1, 0, 0, "1.0", by decide, by decide, by decide⟩
    validate args {} {} {} "/w" = .ok c ∧ Path.isAbsolute "/w" = true ∧
      Accepted args {} {} {} "/w" c ∧
      (c.stages.package = true → ∀ (r : Runner) (m : Machine),
        ((Packaging.package c).run' r m).1 ≠ .error .missingInstallerCompiler) ∧
      (∀ (r : Runner) (m : Machine),
        ((Packaging.package c).run' r.recording m).1 = .error .missingInstallerCompiler →
          ((Packaging.package c).run' r.recording m).2.calls = m.calls) := by
  intro args c
  have hvalid : validate args {} {} {} "/w" = .ok c :=
    (validate_eq_ok_iff args {} {} {} "/w" c).2 ⟨by cbv, by cbv, _, by cbv, rfl⟩
  have habsolute : Path.isAbsolute "/w" = true := by cbv
  exact ⟨hvalid, habsolute, validate_accepted args {} {} {} "/w" hvalid habsolute⟩

end BuildConfiguration

end ReleaseBuild
