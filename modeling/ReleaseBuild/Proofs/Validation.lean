import Mathlib
import ReleaseBuild.Configuration
/-!
# What validation reports

Validation runs in two phases. The first collects every problem of the arguments, in a fixed
order; the certificate is made absolute only when the first phase found nothing, so its problem
is reported alone.

`BuildConfiguration.validate_eq` cuts `validate` into its parts: the resolved compiler and
signing tool, the problems of the first phase, the signing of the second, and the configuration
they build. `validate_eq_ok_iff` and `validate_eq_error_iff` then say exactly when each phase
decides the result.

`ruleProblems` states the first phase the way an operator reads the rules, without the parts:
the stage specification is read character by character, packaging is asked for by `a` or `i`,
the driver kit is the `WDKPATH` setting and each directory is refused when it has no absolute
form. `validate_eq_error_iff_ruleProblems` says that validation fails exactly when these rules,
and then the certificate's, find a problem, and that its error lists exactly those problems.
-/

set_option autoImplicit false

namespace ReleaseBuild

/-! ## The pieces validation reads -/

namespace Version

/-- The parts out of range are none exactly when all three are within their bounds. -/
theorem partsOutOfRange_eq_nil_iff (major minor build : Nat) :
    partsOutOfRange major minor build = [] ↔ major < 256 ∧ minor < 256 ∧ build < 65536 := by
  -- a part is left out exactly when its value is below its limit
  have hpart (p : VersionPart) (v : Nat) :
      (if p.limit ≤ v then some p else none) = none ↔ v < p.limit := by
    split <;> simp_all
  simp only [partsOutOfRange, List.filterMap_eq_nil_iff, List.forall_mem_cons, hpart]
  simp [VersionPart.limit]

/-- A version that cannot be read has at least one problem. -/
theorem parse_error_ne_nil {text : String} {ps : List VersionProblem}
    (h : parse text = .error ps) : ps ≠ [] := by
  unfold parse at h
  -- either the text is not three numbers, or some number is out of range
  split at h
  · cases h
    simp
  · dsimp only at h
    split at h
    · cases h
    · rename_i hbounds
      cases h
      simpa [partsOutOfRange_eq_nil_iff] using hbounds

end Version

namespace StageSet

/-- A specification passes exactly when each of its characters is `a`, `b` or `i`. -/
theorem parse_isOk_iff (spec : String) :
    spec.all isToken = true ↔ ∀ ch ∈ spec.toList, ch = 'a' ∨ ch = 'b' ∨ ch = 'i' := by
  simp [String.all_bool_eq, isToken, or_assoc]

/-- The build stage is asked for by `a` or `b`, wherever they stand. -/
theorem ofTokens_build (spec : String) :
    (ofTokens spec).build = true ↔ 'a' ∈ spec.toList ∨ 'b' ∈ spec.toList := by
  unfold ofTokens
  split <;> simp_all [String.contains_char_eq, all]

/-- The package stage is asked for by `a` or `i`, wherever they stand. -/
theorem ofTokens_package (spec : String) :
    (ofTokens spec).package = true ↔ 'a' ∈ spec.toList ∨ 'i' ∈ spec.toList := by
  unfold ofTokens
  split <;> simp_all [String.contains_char_eq, all]

end StageSet

theorem ToolEnvironment.signTool_eq_none_iff (env : ToolEnvironment) :
    env.signTool = none ↔ env.wdkPath = none := by
  simp [ToolEnvironment.signTool]

/-- The installer compiler found from the Program Files directories: the compiler under the first
of them that holds it as a file, and otherwise the one on the search path. -/
theorem ToolEnvironment.findInstallerCompiler_eq (env : ToolEnvironment) (tree : FileTree)
    (cwd : Location) :
    env.findInstallerCompiler tree cwd =
      ((env.programFiles.find? fun p => tree.isFile? cwd (compilerUnder p)).map compilerUnder).or
        env.installerCompilerOnPath := by
  simp only [findInstallerCompiler, List.find?_map, Function.comp_def]
  cases env.programFiles.find? (fun p => tree.isFile? cwd (compilerUnder p)) <;> rfl

namespace BuildConfiguration

/-! ## Validation in two phases -/

section Phases

variable (args : ReleaseArgs) (env : ToolEnvironment) (settings : Settings) (tree : FileTree)
  (cwd : String)

/-- The installer compiler validation resolves: it is looked for only when packaging. -/
def compilerOf : Option String :=
  if (StageSet.ofTokens args.stage).package then
    env.findInstallerCompiler tree (FileTree.locationOf cwd)
  else none

/-- The signing tool validation resolves: only when packaging with signing on. -/
def signToolOf : Option String :=
  if (StageSet.ofTokens args.stage).package && !args.noSign then env.signTool else none

/-- The output root with its problems; the script directory when no output is given. -/
def outputOf : String × List ConfigProblem :=
  match args.output with
  | some dir => absolutize cwd "output" dir
  | none => ((absolutize cwd "script" args.scriptDir).1, [])

/-- The problems of the first phase, in the order they are reported. -/
def problems : List ConfigProblem :=
  stageProblems args.stage ++
    (if (StageSet.ofTokens args.stage).package then
      packagingProblems args settings (compilerOf args env tree cwd) (signToolOf args env)
    else []) ++
    (versionOf args.version).2 ++ (absolutize cwd "script" args.scriptDir).2 ++
    (outputOf args cwd).2

/-- The second phase: the signing configuration, with the problems of its certificate. -/
def signingOf : Option SigningConfig × List ConfigProblem :=
  match signToolOf args env, args.certFile with
  | some tool, some cert =>
    (some ⟨tool, (absolutize cwd "certificate" cert).1, args.certPass⟩,
      (absolutize cwd "certificate" cert).2)
  | _, _ => (none, [])

/-- The configuration of arguments that passed the first phase with version `v`. -/
def configurationOf (v : Version) : BuildConfiguration where
  version := v
  stages := StageSet.ofTokens args.stage
  debug := args.debug
  signing := (signingOf args env cwd).1
  outputRoot := (outputOf args cwd).1
  layout := ⟨Path.join (outputOf args cwd).1 (buildRootName v (BuildType.ofDebug args.debug))⟩
  scriptDir := (absolutize cwd "script" args.scriptDir).1
  installerCompiler := compilerOf args env tree cwd
  settings := settings

theorem validate_eq :
    validate args env settings tree cwd =
      match (versionOf args.version).1, problems args env settings tree cwd with
      | some v, [] =>
        if (signingOf args env cwd).2.isEmpty then .ok (configurationOf args env settings tree cwd v)
        else .error (failure (signingOf args env cwd).2)
      | _, _ => .error (failure (problems args env settings tree cwd)) := rfl

/-- A version that could not be read leaves a problem in the first phase. -/
theorem problems_ne_nil_of_version (h : (versionOf args.version).1 = none) :
    problems args env settings tree cwd ≠ [] := by
  -- a missing version and a version that does not read both leave their problems
  have hversion : (versionOf args.version).2 ≠ [] := by
    unfold versionOf at h ⊢
    split at h
    · simp
    · split at h
      · cases h
      · rename_i hparse
        simpa using Version.parse_error_ne_nil hparse
  simp_all [problems]

/-- **The first phase decides.** Any problem it finds is the whole error. -/
theorem validate_of_problems_ne_nil (h : problems args env settings tree cwd ≠ []) :
    validate args env settings tree cwd = .error (failure (problems args env settings tree cwd)) := by
  rw [validate_eq]
  split
  · rename_i hnil
    exact absurd hnil h
  · rfl

/-- **The second phase decides** once the first found nothing: the version was read, and the
certificate's problems alone stand between the arguments and their configuration. -/
theorem validate_of_problems_eq_nil (h : problems args env settings tree cwd = []) :
    ∃ v, (versionOf args.version).1 = some v ∧
      validate args env settings tree cwd =
        if (signingOf args env cwd).2.isEmpty then .ok (configurationOf args env settings tree cwd v)
        else .error (failure (signingOf args env cwd).2) := by
  cases hv : (versionOf args.version).1 with
  | none => exact absurd h (problems_ne_nil_of_version args env settings tree cwd hv)
  | some v =>
    refine ⟨v, rfl, ?_⟩
    rw [validate_eq, hv, h]

theorem validate_eq_ok_iff (c : BuildConfiguration) :
    validate args env settings tree cwd = .ok c ↔
      problems args env settings tree cwd = [] ∧ (signingOf args env cwd).2 = [] ∧
        ∃ v, (versionOf args.version).1 = some v ∧ c = configurationOf args env settings tree cwd v := by
  by_cases h : problems args env settings tree cwd = []
  · obtain ⟨v, hv, heq⟩ := validate_of_problems_eq_nil args env settings tree cwd h
    rw [heq, hv]
    cases (signingOf args env cwd).2 with
    | nil => simp [h, eq_comm]
    | cons p ps => simp
  · rw [validate_of_problems_ne_nil args env settings tree cwd h]
    simp [h]

theorem validate_eq_error_iff (e : ValidationError) :
    validate args env settings tree cwd = .error e ↔
      (problems args env settings tree cwd ≠ [] ∧ e = failure (problems args env settings tree cwd)) ∨
      (problems args env settings tree cwd = [] ∧ (signingOf args env cwd).2 ≠ [] ∧
        e = failure (signingOf args env cwd).2) := by
  by_cases h : problems args env settings tree cwd = []
  · obtain ⟨v, -, heq⟩ := validate_of_problems_eq_nil args env settings tree cwd h
    rw [heq]
    cases (signingOf args env cwd).2 with
    | nil => simp [h]
    | cons p ps => simp [h, eq_comm]
  · rw [validate_of_problems_ne_nil args env settings tree cwd h, Except.error.injEq]
    simp only [h, false_and, or_false, ne_eq, not_false_eq_true, true_and]
    exact eq_comm

end Phases

/-! ## The rules, as an operator reads them -/

section Rules

variable (args : ReleaseArgs) (env : ToolEnvironment) (settings : Settings) (tree : FileTree)
  (cwd : String)

/-- The problem of a directory that has no absolute form, seen from `cwd`. -/
def directoryProblems (what path : String) : List ConfigProblem :=
  match Path.absolute cwd path with
  | .ok _ => []
  | .error reason => [.badDirectory what path reason]

/-- The problems the rules of a run find in its arguments, in the order they are reported:
(1) a character of the stage specification other than `a`, `b` and `i`; (2) when the
specification holds `a` or `i`, valid or not, a missing installer compiler and, unless signing is
off, an undefined driver kit, a missing certificate and an empty list of timestamp servers;
(3) a missing version, or every problem of reading it; (4) a script directory, and (5) an output
directory when one is given, with no absolute form. -/
def ruleProblems : List ConfigProblem :=
  (if ∀ ch ∈ args.stage.toList, ch = 'a' ∨ ch = 'b' ∨ ch = 'i' then [] else [.stage args.stage]) ++
  (if 'a' ∈ args.stage.toList ∨ 'i' ∈ args.stage.toList then
    (if env.findInstallerCompiler tree (FileTree.locationOf cwd) = none then [.compilerMissing]
     else []) ++
    (if args.noSign then []
     else
      (if env.wdkPath = none then [.kitUndefined] else []) ++
      (if args.certFile = none then [.certificateRequired] else []) ++
      (if settings.signing.timestampServers = [] then [.noTimestampServers] else []))
  else []) ++
  (match args.version with
    | none => [.versionRequired]
    | some text =>
      match Version.parse text with
      | .ok _ => []
      | .error ps => ps.map .version) ++
  directoryProblems cwd "script" args.scriptDir ++
  (match args.output with
    | some dir => directoryProblems cwd "output" dir
    | none => [])

/-- The problem the certificate adds once the rules found nothing: when the run packages and
signs, a certificate with no absolute form. -/
def certificateProblems : List ConfigProblem :=
  if ('a' ∈ args.stage.toList ∨ 'i' ∈ args.stage.toList) ∧ args.noSign = false then
    match args.certFile with
    | some cert => directoryProblems cwd "certificate" cert
    | none => []
  else []

theorem absolutize_snd (what path : String) :
    (absolutize cwd what path).2 = directoryProblems cwd what path := by
  unfold absolutize directoryProblems
  cases Path.absolute cwd path <;> rfl

theorem stageProblems_eq (spec : String) :
    stageProblems spec =
      if ∀ ch ∈ spec.toList, ch = 'a' ∨ ch = 'b' ∨ ch = 'i' then [] else [.stage spec] := by
  unfold stageProblems StageSet.parse
  by_cases h : spec.all StageSet.isToken = true
  · rw [if_pos ((StageSet.parse_isOk_iff spec).1 h), if_pos h]
  · rw [if_neg (mt (StageSet.parse_isOk_iff spec).2 h), if_neg h]

theorem packagingProblems_eq :
    (if (StageSet.ofTokens args.stage).package then
      packagingProblems args settings (compilerOf args env tree cwd) (signToolOf args env)
    else []) =
    (if 'a' ∈ args.stage.toList ∨ 'i' ∈ args.stage.toList then
      (if env.findInstallerCompiler tree (FileTree.locationOf cwd) = none then [.compilerMissing]
       else []) ++
      (if args.noSign then []
       else
        (if env.wdkPath = none then [.kitUndefined] else []) ++
        (if args.certFile = none then [.certificateRequired] else []) ++
        (if settings.signing.timestampServers = [] then [.noTimestampServers] else []))
    else []) := by
  by_cases hp : (StageSet.ofTokens args.stage).package = true
  · rw [if_pos hp, if_pos ((StageSet.ofTokens_package _).1 hp)]
    cases hn : args.noSign <;>
      simp [packagingProblems, compilerOf, signToolOf, hp, hn, ← ToolEnvironment.signTool_eq_none_iff]
  · rw [if_neg hp, if_neg (mt (StageSet.ofTokens_package _).2 hp)]

theorem versionOf_snd (text : Option String) :
    (versionOf text).2 =
      match text with
      | none => [.versionRequired]
      | some t =>
        match Version.parse t with
        | .ok _ => []
        | .error ps => ps.map .version := by
  unfold versionOf
  cases text with
  | none => rfl
  | some t =>
    dsimp only
    cases Version.parse t <;> rfl

theorem outputOf_snd :
    (outputOf args cwd).2 =
      match args.output with
      | some dir => directoryProblems cwd "output" dir
      | none => [] := by
  unfold outputOf
  split
  · exact absolutize_snd cwd _ _
  · rfl

/-- The first phase is the rules. -/
theorem problems_eq_ruleProblems :
    problems args env settings tree cwd = ruleProblems args env settings tree cwd := by
  unfold problems ruleProblems
  rw [stageProblems_eq, packagingProblems_eq, versionOf_snd, absolutize_snd, outputOf_snd]

/-- What arguments that pass the rules have: tokens only in the stage specification; when it
asks for packaging, an installer compiler and, with signing on, a driver kit, a certificate and a
timestamp server; a version that reads; directories with absolute forms. -/
structure RulesPass : Prop where
  tokens : ∀ ch ∈ args.stage.toList, ch = 'a' ∨ ch = 'b' ∨ ch = 'i'
  compiler : 'a' ∈ args.stage.toList ∨ 'i' ∈ args.stage.toList →
    env.findInstallerCompiler tree (FileTree.locationOf cwd) ≠ none
  signing : 'a' ∈ args.stage.toList ∨ 'i' ∈ args.stage.toList → args.noSign = false →
    env.wdkPath ≠ none ∧ args.certFile ≠ none ∧ settings.signing.timestampServers ≠ []
  version : ∃ text v, args.version = some text ∧ Version.parse text = .ok v
  scriptDir : ∃ dir, Path.absolute cwd args.scriptDir = .ok dir
  output : ∀ dir, args.output = some dir → ∃ dir', Path.absolute cwd dir = .ok dir'

theorem directoryProblems_eq_nil_iff (what path : String) :
    directoryProblems cwd what path = [] ↔ ∃ dir, Path.absolute cwd path = .ok dir := by
  unfold directoryProblems
  cases Path.absolute cwd path <;> simp

theorem RulesPass.of_ruleProblems_eq_nil (h : ruleProblems args env settings tree cwd = []) :
    RulesPass args env settings tree cwd := by
  -- an empty list of problems has an empty block for every rule
  simp only [ruleProblems, List.append_eq_nil_iff] at h
  obtain ⟨⟨⟨⟨hstage, hpack⟩, hversion⟩, hscript⟩, houtput⟩ := h
  refine ⟨?tokens, fun hp => ?compiler, fun hp hn => ?signing, ?version, ?scriptDir, ?output⟩
  case tokens =>
    split at hstage
    · assumption
    · simp at hstage
  case compiler =>
    rw [if_pos hp] at hpack
    intro hnone
    simp [hnone] at hpack
  case signing =>
    simp only [if_pos hp, hn, List.append_eq_nil_iff] at hpack
    simp_all
  case version =>
    cases hv : args.version with
    | none => simp [hv] at hversion
    | some text =>
      rw [hv] at hversion
      cases hparse : Version.parse text with
      | error ps =>
        simp only [hparse, List.map_eq_nil_iff] at hversion
        exact absurd hversion (Version.parse_error_ne_nil hparse)
      | ok v => exact ⟨text, v, rfl, hparse⟩
  case scriptDir => exact (directoryProblems_eq_nil_iff cwd _ _).1 hscript
  case output =>
    intro dir hdir
    rw [hdir] at houtput
    exact (directoryProblems_eq_nil_iff cwd _ _).1 houtput

/-- Once the rules found nothing, the second phase finds exactly the certificate's problem. -/
theorem signingOf_snd_of_problems_eq_nil (h : problems args env settings tree cwd = []) :
    (signingOf args env cwd).2 = certificateProblems args cwd := by
  have hpass := RulesPass.of_ruleProblems_eq_nil args env settings tree cwd
    (problems_eq_ruleProblems args env settings tree cwd ▸ h)
  unfold signingOf certificateProblems signToolOf
  by_cases hsign : ('a' ∈ args.stage.toList ∨ 'i' ∈ args.stage.toList) ∧ args.noSign = false
  · -- packaging signs, so the rules passing gave a driver kit and a certificate
    rw [if_pos hsign]
    obtain ⟨hp, hn⟩ := hsign
    obtain ⟨hkit, hcert, -⟩ := hpass.signing hp hn
    obtain ⟨wdk, hwdk⟩ := Option.ne_none_iff_exists'.1 hkit
    obtain ⟨cert, hc⟩ := Option.ne_none_iff_exists'.1 hcert
    have hpack := (StageSet.ofTokens_package args.stage).2 hp
    simp [hpack, hn, hwdk, hc, ToolEnvironment.signTool, absolutize_snd]
  · -- no signing tool is resolved, so there is no certificate to make absolute
    rw [if_neg hsign]
    have hnone : ((StageSet.ofTokens args.stage).package && !args.noSign) = false := by
      rw [← StageSet.ofTokens_package] at hsign
      cases hp : (StageSet.ofTokens args.stage).package <;> cases hn : args.noSign <;> simp_all
    simp [hnone]

/-- **What validation reports.** Validation fails exactly when the rules find a problem, and its
error then lists exactly those problems, in order; when the rules find none, it fails exactly
when the certificate has a problem, and reports that problem alone. -/
theorem validate_eq_error_iff_ruleProblems (e : ValidationError) :
    validate args env settings tree cwd = .error e ↔
      (ruleProblems args env settings tree cwd ≠ [] ∧
        e = failure (ruleProblems args env settings tree cwd)) ∨
      (ruleProblems args env settings tree cwd = [] ∧ certificateProblems args cwd ≠ [] ∧
        e = failure (certificateProblems args cwd)) := by
  rw [validate_eq_error_iff, problems_eq_ruleProblems]
  by_cases h : ruleProblems args env settings tree cwd = []
  · have hcert := signingOf_snd_of_problems_eq_nil args env settings tree cwd
      ((problems_eq_ruleProblems args env settings tree cwd).trans h)
    rw [hcert]
  · simp only [h, false_and, or_false]

end Rules

end BuildConfiguration

end ReleaseBuild
