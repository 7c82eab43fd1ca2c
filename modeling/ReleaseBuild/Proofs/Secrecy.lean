import ReleaseBuild.Proofs.Validation
import ReleaseBuild.Proofs.Run
import ReleaseBuild.Cli.Program
/-!
# The certificate password stays secret

The certificate password reaches one place only: the sign command, as a secret argument, which
is shown as `****` whatever it is. A runner that sees commands only as they are shown, with
their directories (`Runner.Blind`, such as the scripted toolbox), therefore cannot tell two
runs apart that differ in the password alone.

`ReleaseM.Alike` relates two computations that every blind runner sees run alike: from every
machine they give the same result and leave the same machine. It is kept by sequencing, so the
stages of a release are compared step by step, and only the sign step differs.
`password_noninterference` says that validation of arguments that differ in the password gives
configurations that differ in the password alone, and that the release of a command line, from
validation to the published installers, does not depend on the password at all under a blind
runner: the same failure, the same calls, the same files and the same console.
-/

set_option autoImplicit false

namespace ReleaseBuild

variable {α β : Type}

/-- The same signer with another password. -/
def SigningConfig.withPassword (s : SigningConfig) (p : String) : SigningConfig :=
  { s with password := p }

/-- The same configuration with another password for its signer, if it has one. -/
def BuildConfiguration.withPassword (c : BuildConfiguration) (p : String) : BuildConfiguration :=
  { c with signing := c.signing.map (·.withPassword p) }

theorem BuildConfiguration.withPassword_of_signing_eq_none {c : BuildConfiguration}
    (h : c.signing = none) (p : String) : c.withPassword p = c := by
  cases c
  simp_all [BuildConfiguration.withPassword]

/-! ## Computations a blind runner cannot tell apart -/

/-- Two computations are alike when every blind runner sees them run alike: from every machine
they give the same result and leave the same machine. -/
def ReleaseM.Alike (x y : ReleaseM α) : Prop :=
  ∀ r : Runner, r.Blind → ∀ m, x.run' r m = y.run' r m

namespace ReleaseM.Alike

theorem refl (x : ReleaseM α) : Alike x x := fun _ _ _ => rfl

theorem bind {x y : ReleaseM α} {f g : α → ReleaseM β} (hx : Alike x y)
    (hf : ∀ a, Alike (f a) (g a)) : Alike (x >>= f) (y >>= g) := by
  intro r hr m
  rw [run'_bind, run'_bind, hx r hr m]
  rcases y.run' r m with ⟨_ | a, m'⟩
  · rfl
  · exact hf a r hr m'

theorem forM {l : List β} {f g : β → ReleaseM PUnit} (h : ∀ b ∈ l, Alike (f b) (g b)) :
    Alike (l.forM f) (l.forM g) := by
  induction l with
  | nil => exact refl _
  | cons b l ih =>
    rw [List.forM_eq_forM, List.forM_cons, List.forM_cons]
    exact (h b (by simp)).bind fun _ => ih fun b' hb' => h b' (by simp [hb'])

/-- Both fail at once, whatever was to follow. -/
theorem fail_bind (e : Failure) (f g : α → ReleaseM β) :
    Alike (ReleaseM.fail e >>= f) (ReleaseM.fail e >>= g) := by
  intro r _ m
  rw [run'_bind_of_error (run'_fail e r m), run'_bind_of_error (run'_fail e r m)]

theorem ite {c : Prop} [Decidable c] {x x' y y' : ReleaseM α} (hx : Alike x x') (hy : Alike y y') :
    Alike (if c then x else y) (if c then x' else y') := by
  by_cases h : c
  · rw [if_pos h, if_pos h]
    exact hx
  · rw [if_neg h, if_neg h]
    exact hy

/-- A tool run is seen only through the command as shown and its directory: the answer, the
effect and the failure that names the command. -/
theorem runChecked (tool : String) {cmd cmd' : Invocation} (h : cmd.display = cmd'.display)
    (hcwd : cmd.cwd = cmd'.cwd) : Alike (ReleaseM.runChecked tool cmd) (ReleaseM.runChecked tool cmd') := by
  intro r hr m
  rw [run'_runChecked, run'_runChecked, hr cmd cmd' m h hcwd, h]

end ReleaseM.Alike

open ReleaseM

/-! ## Signing with another password -/

namespace Signing

variable (s : SigningConfig) (p : String)

/-- The password is shown masked, so the sign command shows the same. -/
theorem signCommand_withPassword_display (file : String) :
    (signCommand (s.withPassword p) file).display = (signCommand s file).display := rfl

theorem alike_sign (file : String) : Alike (sign (s.withPassword p) file) (sign s file) := by
  unfold sign
  exact (Alike.refl _).bind fun _ =>
    Alike.runChecked _ (signCommand_withPassword_display s p file) rfl

/-- Timestamping does not read the password. -/
theorem tryServers_withPassword (file : String) (servers : List String) :
    tryServers (s.withPassword p) file servers = tryServers s file servers := by
  induction servers with
  | nil => rfl
  | cons server rest ih =>
    simp only [tryServers, ih]
    rfl

theorem alike_signAndTimestamp (servers : List String) (file : String) :
    Alike (signAndTimestamp (s.withPassword p) servers file) (signAndTimestamp s servers file) := by
  unfold signAndTimestamp timestamp
  rw [tryServers_withPassword]
  exact (alike_sign s p file).bind fun _ => Alike.refl _

end Signing

/-! ## A release with another password -/

namespace Packaging

variable (c : BuildConfiguration) (p : String)

/-- Staging copies the certificate, which does not depend on the password. -/
theorem prepareStaging_withPassword (staging : String) :
    prepareStaging (c.withPassword p) staging = prepareStaging c staging := by
  cases hs : c.signing with
  | none => rw [BuildConfiguration.withPassword_of_signing_eq_none hs]
  | some s =>
    simp only [prepareStaging, BuildConfiguration.withPassword, hs, Option.map_some]
    rfl

/-- Compiling the installer does not read the signer. -/
theorem compileInstaller_withPassword (staging : String) :
    compileInstaller (c.withPassword p) staging = compileInstaller c staging := rfl

theorem alike_package : Alike (package (c.withPassword p)) (package c) := by
  cases hs : c.signing with
  | none =>
    rw [BuildConfiguration.withPassword_of_signing_eq_none hs]
    exact Alike.refl _
  | some s =>
    unfold package
    simp only [prepareStaging_withPassword, compileInstaller_withPassword]
    simp only [BuildConfiguration.withPassword, BuildConfiguration.timestampServers, hs,
      Option.map_some]
    -- only the signer differs: every other step reads what the password leaves alone
    refine (Alike.refl _).bind fun m => Alike.ite (Alike.fail_bind _ _ _) ?_
    exact (Alike.refl _).bind fun _ =>
      (Alike.forM fun arch _ => Signing.alike_signAndTimestamp s p _ _).bind fun _ =>
      (Alike.refl _).bind fun installer =>
      (Signing.alike_signAndTimestamp s p _ installer).bind fun _ => Alike.refl _

end Packaging

theorem Release.alike_run (c : BuildConfiguration) (p : String) (now : Timestamp) :
    Alike (Release.run (c.withPassword p) now) (Release.run c now) := by
  have hbuild : Release.build (c.withPassword p) now = Release.build c now := rfl
  unfold Release.run
  simp only [hbuild]
  have hpackage : Alike
      (if (c.withPassword p).stages.package then Packaging.package (c.withPassword p) else pure [])
      (if c.stages.package then Packaging.package c else pure []) :=
    Alike.ite (Packaging.alike_package c p) (Alike.refl _)
  exact Alike.ite ((Alike.refl _).bind fun _ => hpackage) hpackage

/-! ## Validation with another password -/

namespace BuildConfiguration

variable (args : ReleaseArgs) (p : String) (env : ToolEnvironment) (settings : Settings)
  (tree : FileTree) (cwd : String)

/-- The second phase puts the password into the signer and nowhere else. -/
theorem signingOf_withPassword :
    signingOf { args with certPass := p } env cwd =
      ((signingOf args env cwd).1.map (·.withPassword p), (signingOf args env cwd).2) := by
  have htool : signToolOf { args with certPass := p } env = signToolOf args env := rfl
  unfold signingOf
  dsimp only
  rw [htool]
  cases signToolOf args env <;> cases args.certFile <;> rfl

/-- Arguments that differ in the password alone validate to configurations that differ in the
password alone, and fail with the same problems. -/
theorem validate_withPassword :
    validate { args with certPass := p } env settings tree cwd =
      (validate args env settings tree cwd).map (·.withPassword p) := by
  -- the first phase does not read the password
  have hproblems : problems { args with certPass := p } env settings tree cwd =
      problems args env settings tree cwd := rfl
  by_cases h : problems args env settings tree cwd = []
  · obtain ⟨v, hv, heq⟩ := validate_of_problems_eq_nil args env settings tree cwd h
    obtain ⟨v', hv', heq'⟩ :=
      validate_of_problems_eq_nil { args with certPass := p } env settings tree cwd (hproblems ▸ h)
    obtain rfl : v' = v := Option.some.inj (hv'.symm.trans hv)
    have hconfig : configurationOf { args with certPass := p } env settings tree cwd v' =
        (configurationOf args env settings tree cwd v').withPassword p := by
      simp only [configurationOf, signingOf_withPassword]
      rfl
    rw [heq', heq, signingOf_withPassword, hconfig]
    cases (signingOf args env cwd).2.isEmpty <;> rfl
  · rw [validate_of_problems_ne_nil args env settings tree cwd h,
      validate_of_problems_ne_nil { args with certPass := p } env settings tree cwd (hproblems ▸ h)]
    rfl

end BuildConfiguration

/-- The release of a command line, from validation to the published installers, runs alike with
any password. -/
theorem alike_releaseOf [SettingsFormat] [ProgramSearch] (l : Launch) (cl : CommandLine) (p : String) :
    Alike (releaseOf l { cl with certPass := p }) (releaseOf l cl) := by
  unfold releaseOf
  refine (Alike.refl _).bind fun settings => (Alike.refl _).bind fun m => ?_
  have hargs (scriptDir : String) : ({ cl with certPass := p } : CommandLine).releaseArgs scriptDir =
      { cl.releaseArgs scriptDir with certPass := p } := rfl
  have hdir : l.scriptDirOf { cl with certPass := p } = l.scriptDirOf cl := rfl
  simp only [hargs, hdir, BuildConfiguration.validate_withPassword]
  cases BuildConfiguration.validate (cl.releaseArgs (l.scriptDirOf cl))
    (toolEnvironment l m.files) settings m.files l.cwd with
  | error e => exact Alike.refl _
  | ok c => exact Release.alike_run c p l.now

/-- **The password stays secret.** Arguments that differ in the certificate password alone
validate to configurations that differ in the password alone. And under a runner that sees
commands only as they are shown, the release of two command lines that differ in the password
alone gives the same result, installers or failure, and leaves the same machine: the same calls,
files and console. -/
theorem password_noninterference [SettingsFormat] [ProgramSearch] (p : String) :
    (∀ args env settings tree cwd,
      BuildConfiguration.validate { args with certPass := p } env settings tree cwd =
        (BuildConfiguration.validate args env settings tree cwd).map (·.withPassword p)) ∧
    ∀ (l : Launch) (cl : CommandLine) (r : Runner), r.Blind → ∀ m,
      (releaseOf l { cl with certPass := p }).run' r m = (releaseOf l cl).run' r m :=
  ⟨fun args => BuildConfiguration.validate_withPassword args p, fun l cl => alike_releaseOf l cl p⟩

/-- A packaging command line with a certificate, run from `/w` with a driver kit and an installer
compiler at hand: validation, with the default settings as no settings file is there, turns
signing on, and the release with the password `secret` runs as the one with the default
password. -/
theorem password_noninterference_scripted :
    let l : Launch := ⟨[], [("WDKPATH", "/wdk"), ("ProgramFiles", "/pf")], "/w", "/w",
      ⟨2024, 1, 1, 0, 0, 0, 0⟩⟩
    let cl : CommandLine :=
      { stage := "i", version := some "1.0", certFile := some "c.pfx", scriptDir := some "/s" }
    let m : Machine :=
      { files := ⟨[(["pf"], .directory), (["pf", "Inno Setup 5"], .directory),
          (["pf", "Inno Setup 5", "iscc.exe"], .file "" true)]⟩, cwd := "/w" }
    (∃ c, BuildConfiguration.validate (cl.releaseArgs "/s") (toolEnvironment l m.files) {}
        m.files l.cwd = .ok c ∧ c.signing ≠ none) ∧
      Runner.scripted.Blind ∧
      (releaseOf l { cl with certPass := "secret" }).run' Runner.scripted m =
        (releaseOf l cl).run' Runner.scripted m := by
  intro l cl m
  refine ⟨?_, Runner.scripted_blind,
    (password_noninterference "secret").2 l cl _ Runner.scripted_blind m⟩
  -- the stages and the search path do not reduce in the kernel: they are read off first
  have hstages : StageSet.ofTokens "i" = ⟨false, true⟩ := by
    simp [StageSet.ofTokens, String.contains_char_eq]
  have henv : toolEnvironment l m.files = { programFiles := ["/pf"], wdkPath := some "/wdk" } := by
    cbv
  have hcompiler : BuildConfiguration.compilerOf (cl.releaseArgs "/s") (toolEnvironment l m.files)
      m.files l.cwd = some "/pf/Inno Setup 5/iscc.exe" := by
    simp only [BuildConfiguration.compilerOf, henv, cl, CommandLine.releaseArgs, hstages]
    decide +kernel
  have htool : BuildConfiguration.signToolOf (cl.releaseArgs "/s") (toolEnvironment l m.files) =
      some "/wdk/bin/x86/signtool" := by
    simp only [BuildConfiguration.signToolOf, henv, cl, CommandLine.releaseArgs, hstages]
    cbv
  have hproblems : BuildConfiguration.problems (cl.releaseArgs "/s") (toolEnvironment l m.files) {}
      m.files l.cwd = [] := by
    simp only [BuildConfiguration.problems, hcompiler, htool]
    simp only [cl, CommandLine.releaseArgs, hstages]
    cbv
  refine ⟨_, (BuildConfiguration.validate_eq_ok_iff _ _ _ _ _ _).2
    ⟨hproblems, by simp only [BuildConfiguration.signingOf, htool]; cbv, _, by cbv, rfl⟩, ?_⟩
  simp only [BuildConfiguration.configurationOf, BuildConfiguration.signingOf, htool]
  simp [cl, CommandLine.releaseArgs]

end ReleaseBuild
