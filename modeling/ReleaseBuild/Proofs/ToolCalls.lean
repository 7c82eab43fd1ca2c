import ReleaseBuild.Proofs.Protocol
/-!
# The tool calls of a release

A release runs three external tools, and the order in which it runs them is fixed by the
configuration. The build stage runs the build helper once per architecture, 32-bit first:
`<helper> <script dir> <fre|chk> <arch>`. The package stage, when signing, signs and timestamps
the staged driver of each architecture, then runs the installer compiler inside the staging
directory, then signs and timestamps the published installer. Signing is one call of the sign
tool with the password shown as `****`; timestamping tries the configured servers in turn.

`Release.run_follows_releaseProtocol` says that a run follows this protocol
(`BuildConfiguration.releaseProtocol`) whatever the tools answer and whatever they do to the
files: its calls come in this order, it stops right after the first call that fails, it never
stops at a call that succeeded, and it succeeds only when every call of the protocol was made.
Between calls, a file operation may still end the run.

The protocol is written the way an operator reads the calls, as words joined by single spaces,
and each command of the release is shown to be displayed as those words.
-/

set_option autoImplicit false

namespace ReleaseBuild

/-! ## The calls, as an operator reads them -/

namespace BuildConfiguration

/-- The call that builds one architecture, given its tag: `<helper> <script dir> <fre|chk> <arch>`,
the helper being the settings' helper under the script directory. -/
def helperCall (c : BuildConfiguration) (arch : String) : ToolCall :=
  ⟨" ".intercalate [Path.join c.scriptDir c.settings.build.helper, c.scriptDir,
    if c.debug then "chk" else "fre", arch], none⟩

/-- The call that signs a file: `<sign tool> sign /v /f <certificate> /p **** <file>`. -/
def signCall (s : SigningConfig) (file : String) : ToolCall :=
  ⟨" ".intercalate [s.signTool, "sign", "/v", "/f", s.certificate, "/p", "****", file], none⟩

/-- The call that timestamps a file with one server: `<sign tool> timestamp /t <server> <file>`. -/
def timestampCall (s : SigningConfig) (server file : String) : ToolCall :=
  ⟨" ".intercalate [s.signTool, "timestamp", "/t", server, file], none⟩

/-- The installer staging directory, `<build root>/temp/installer`. -/
def stagingDir (c : BuildConfiguration) : String := Path.joinAll c.buildRoot ["temp", "installer"]

/-- The staged driver of an architecture, `<staging>/<arch>/hone.sys`. -/
def stagedDriver (c : BuildConfiguration) (arch : String) : String :=
  Path.joinAll c.stagingDir [arch, "hone.sys"]

/-- The published installer, `<build root>/installers/Hone-<version>-<platform>.exe`. -/
def publishedInstaller (c : BuildConfiguration) : String :=
  Path.joinAll c.buildRoot ["installers", "Hone-" ++ c.version.text ++ "-" ++ c.platformTag ++ ".exe"]

/-- Signing a file, when the run signs: the sign call, then the timestamp calls over the
configured servers in order, until one succeeds. -/
def signingProtocol (c : BuildConfiguration) (file : String) : Protocol :=
  match c.signing with
  | some s => [.checked (signCall s file), .failover (c.timestampServers.map (timestampCall s · file))]
  | none => []

/-- Compiling the installer: `<compiler> hone.iss` inside the staging directory. Without a
compiler the run cannot go on. -/
def compilePhase (c : BuildConfiguration) : Phase :=
  match c.installerCompiler with
  | some compiler => .checked ⟨" ".intercalate [compiler, "hone.iss"], some c.stagingDir⟩
  | none => .halt

/-- The build stage: the helper for `x86`, then for `x64`. -/
def buildProtocol (c : BuildConfiguration) : Protocol :=
  [.checked (c.helperCall "x86"), .checked (c.helperCall "x64")]

/-- The package stage: sign both staged drivers, compile, sign the published installer. -/
def packageProtocol (c : BuildConfiguration) : Protocol :=
  c.signingProtocol (c.stagedDriver "x86") ++ c.signingProtocol (c.stagedDriver "x64") ++
    [c.compilePhase] ++ c.signingProtocol c.publishedInstaller

/-- The protocol of a run: the selected stages in order. -/
def releaseProtocol (c : BuildConfiguration) : Protocol :=
  (if c.stages.build then c.buildProtocol else []) ++
    (if c.stages.package then c.packageProtocol else [])

end BuildConfiguration

open BuildConfiguration ReleaseM

/-! ## How the release shows its commands -/

theorem Building.helperCommand_call (c : BuildConfiguration) (arch : Architecture) :
    (⟨(Building.helperCommand c arch).display, (Building.helperCommand c arch).cwd⟩ : ToolCall) =
      c.helperCall arch.tag := by
  have htag : c.buildType.tag = if c.debug then "chk" else "fre" := by
    cases h : c.debug <;> simp [BuildConfiguration.buildType, BuildType.ofDebug, BuildType.tag, h]
  simp only [helperCall, ← htag]
  rfl

theorem Signing.signCommand_call (s : SigningConfig) (file : String) :
    (⟨(Signing.signCommand s file).display, (Signing.signCommand s file).cwd⟩ : ToolCall) =
      signCall s file := rfl

theorem Signing.timestampCommand_call (s : SigningConfig) (server file : String) :
    (⟨(Signing.timestampCommand s server file).display,
      (Signing.timestampCommand s server file).cwd⟩ : ToolCall) = timestampCall s server file := rfl

theorem ToolStatus.success_eq_true_iff (s : ToolStatus) : s.success = true ↔ s.code = some 0 := by
  simp [ToolStatus.success]

/-! ## Signing -/

namespace Signing

variable (answer : List ToolCall → ToolCall → Answer) (effect : Invocation → Machine → Machine)

theorem follows_sign (s : SigningConfig) (file : String) :
    Follows (sign s file) [.checked (signCall s file)] := by
  unfold sign
  rw [← signCommand_call]
  exact Follows.quiet_bind (Quiet.log _ _ _) fun _ => Follows.runChecked _ _

/-- **Failover.** Trying the servers in turn makes exactly the calls of the failover's outcome,
and answers whether a server succeeded, unless a call could not be launched, which is a tool's
failure at a failover that did not get through. -/
theorem run'_tryServers (s : SigningConfig) (file : String) (servers : List String) (m : Machine) :
    let run := (tryServers s file servers).run' (Runner.responding answer effect) m
    let o := Phase.failoverOutcome answer m.calls (servers.map (timestampCall s · file))
    run.2.calls = m.calls ++ o.calls ∧
      (run.1 = .ok o.completed ∨
        o.completed = false ∧ ∃ f, run.1 = .error f ∧ f.isToolFailure = true) := by
  induction servers generalizing m with
  | nil => simp [tryServers, Phase.failoverOutcome]
  | cons server rest ih =>
    intro run o
    have hcall := timestampCommand_call s server file
    -- the log line before the call leaves the calls as they were
    simp only [run, o, tryServers, run'_bind, ReleaseM.info, run'_log, run'_runTool,
      Runner.responding_run_result, Machine.emit_calls, hcall, List.map_cons,
      Phase.failoverOutcome]
    rcases hans : answer m.calls (timestampCall s server file) with e | st
    · simp [Runner.responding_run_calls, hcall, Failure.isToolFailure]
    · by_cases hs : st.success = true
      · have hcode : st.code = some 0 := (ToolStatus.success_eq_true_iff st).1 hs
        simp [Runner.responding_run_calls, hcall, hs, hcode]
      · have hcode : ¬st.code = some 0 := fun h => hs ((ToolStatus.success_eq_true_iff st).2 h)
        obtain ⟨hcalls, hres⟩ := ih ((((Runner.responding answer effect).run
          (timestampCommand s server file) (m.emit (.log ⟨.info, .signing,
            "Timestamping " ++ file ++ " using " ++ server⟩))).2).emit (.log ⟨.warn, .signing,
            "timestamp server " ++ server ++ " failed with " ++ st.display⟩))
        simp only [Machine.emit_calls, Runner.responding_run_calls, hcall] at hcalls hres
        simp only [hs, hcode, Bool.false_eq_true, if_false, ReleaseM.warn, run'_bind, run'_log]
        refine ⟨by simpa using hcalls, ?_⟩
        simpa using hres

/-- **Timestamping** follows the failover over the configured servers, in order. -/
theorem follows_timestamp (s : SigningConfig) (servers : List String) (file : String) :
    Follows (timestamp s servers file) [.failover (servers.map (timestampCall s · file))] := by
  intro answer effect m
  obtain ⟨hcalls, hres⟩ := run'_tryServers answer effect s file servers m
  rw [Protocol.outcome_singleton, Phase.outcome]
  generalize Phase.failoverOutcome answer m.calls (servers.map (timestampCall s · file)) = o
    at hcalls hres
  unfold timestamp
  rw [run'_bind]
  rcases hres with hok | ⟨hstop, f, herr, -⟩
  · rw [hok]
    -- a failover that got through succeeds; one where every server failed is exhausted
    cases hc : o.completed
    · exact ⟨o.calls, by simpa using hcalls,
        by simpa using Conforms.stopped (α := PUnit) hc (.timestampExhausted file servers)⟩
    · exact ⟨o.calls, by simpa using hcalls, by simpa using Conforms.completed hc PUnit.unit⟩
  · rw [herr]
    exact ⟨o.calls, hcalls, Conforms.stopped hstop f⟩

theorem follows_signAndTimestamp (s : SigningConfig) (servers : List String) (file : String) :
    Follows (signAndTimestamp s servers file)
      [.checked (signCall s file), .failover (servers.map (timestampCall s · file))] :=
  (follows_sign s file).bind fun _ => follows_timestamp s servers file

end Signing

/-! ## The build stage -/

namespace Building

theorem follows_buildArchitecture (c : BuildConfiguration) (arch : Architecture) :
    Follows (buildArchitecture c arch) [.checked (c.helperCall arch.tag)] := by
  unfold buildArchitecture
  rw [← helperCommand_call]
  exact Follows.quiet_bind (Quiet.log _ _ _) fun _ => Follows.runChecked _ _

theorem follows_buildAll (c : BuildConfiguration) : Follows (buildAll c) c.buildProtocol := by
  have h : c.buildProtocol = Architecture.all.flatMap fun arch => [.checked (c.helperCall arch.tag)] :=
    rfl
  rw [h]
  unfold buildAll
  exact Follows.forM fun arch _ =>
    (follows_buildArchitecture c arch).bind_quiet fun _ => Staging.quiet_stageArchitecture _ _ _ _

end Building

theorem Release.follows_build (c : BuildConfiguration) (now : Timestamp) :
    Follows (Release.build c now) c.buildProtocol := by
  unfold Release.build
  exact Follows.quiet_bind (Quiet.log _ _ _) fun _ =>
    Follows.quiet_bind (Files.quiet_ensureDir _) fun _ =>
    Follows.quiet_bind (Release.quiet_writeVersionHeader _ _ _) fun _ => Building.follows_buildAll c

/-! ## The package stage -/

namespace Packaging

/-- The installer a successful compilation publishes. -/
theorem returns_compileInstaller (c : BuildConfiguration) (staging : String) :
    Returns (compileInstaller c staging)
      (· = Path.join c.layout.installers (installerFileName c.version.text c.platformTag)) := by
  unfold compileInstaller
  split
  · exact Returns.bind fun _ => Returns.bind fun _ => Returns.bind fun _ => Returns.bind fun _ =>
      Returns.bind fun _ => Returns.pure _
  · exact Returns.fail _ _

theorem follows_compileInstaller (c : BuildConfiguration) :
    Follows (compileInstaller c c.layout.installerStaging) [c.compilePhase] := by
  unfold compileInstaller compilePhase
  cases hc : c.installerCompiler with
  | none => exact Follows.halt _
  | some compiler =>
    refine Follows.quiet_bind (Quiet.log _ _ _) fun _ => ?_
    refine (Follows.runChecked _ _).bind_quiet fun _ => ?_
    exact (Files.quiet_ensureDir _).bind fun _ => (Files.quiet_copyTo _ _).bind fun _ =>
      (Quiet.log _ _ _).bind fun _ => Quiet.pure _

theorem follows_package (c : BuildConfiguration) : Follows (package c) c.packageProtocol := by
  unfold package packageProtocol signingProtocol
  simp only []
  refine Follows.quiet_bind Quiet.get fun m => ?_
  split
  · -- a missing build root ends the stage before any call
    exact Follows.fail_bind rfl _ _
  refine Follows.quiet_bind (quiet_prepareStaging _ _) fun _ => ?_
  cases hs : c.signing with
  | none => exact (follows_compileInstaller c).bind_quiet fun _ => Quiet.pure _
  | some s =>
    have hsign (file : String) := Signing.follows_signAndTimestamp s c.timestampServers file
    -- the drivers are signed architecture by architecture, the installer once it is published
    exact (Follows.forM fun arch (_ : arch ∈ Architecture.all) =>
        hsign (Path.join (c.layout.installerStagingArch arch) driverImage)).bind fun _ =>
      (follows_compileInstaller c).bind_of_returns (returns_compileInstaller c _) fun _ h => by
        subst h
        exact (hsign _).bind_quiet fun _ => Quiet.pure _

end Packaging

/-! ## A whole run -/

/-- **The calls of a release.** Whatever the tools answer and whatever they do to the files, a
run makes the calls of `releaseProtocol` in order, stops right after the first that fails, and
succeeds only once all of them have been made. -/
theorem Release.run_follows_releaseProtocol (c : BuildConfiguration) (now : Timestamp) :
    Follows (Release.run c now) c.releaseProtocol := by
  unfold Release.run releaseProtocol
  simp only []
  cases hb : c.stages.build <;> cases hp : c.stages.package <;>
    simp only [↓reduceIte, Bool.false_eq_true, List.nil_append, List.append_nil]
  · exact Follows.of_quiet (Quiet.pure _)
  · exact Packaging.follows_package c
  · exact (Release.follows_build c now).bind_quiet fun _ => Quiet.pure _
  · exact (Release.follows_build c now).bind fun _ => Packaging.follows_package c

end ReleaseBuild
