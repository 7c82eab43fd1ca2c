import ReleaseBuild.Release
/-!
# Running a release computation

A release computation reads its runner, changes the machine and may fail. This module gives the
laws by which the run of a composed computation is made of the runs of its parts, and the
observers through which the later modules look at the tools a run starts.

* `Runner.recording` wraps a runner so that every command it is given is kept, as shown and with
  its directory, at the end of the machine's calls. The release itself never touches that list,
  so after a run it holds exactly the calls the run made.
* `Runner.responding` is a recording runner whose tools answer each call by a function of the
  calls made before it and of the call itself, and change the machine in any way. On one run every
  runner answers as one of these: the run is deterministic, so each call has one answer. Its
  answers are what a run's protocol of calls is read against (`Proofs.Protocol`).
* `Runner.Blind` runners see a command only as it is shown: the scripted toolbox is one.
* `Silent` computations run no tool: under every runner they leave the calls as they were.
  `FailsOnly x P` says that every failure of `x` satisfies `P`, and `Quiet` computations are
  silent and fail only in a file operation.

Every file operation of the release is quiet. The lemmas below show it operation by operation,
following the definitions, so that no later proof about a stage opens a file operation again.
-/

set_option autoImplicit false

namespace ReleaseBuild

variable {α β : Type}

namespace Failure

/-- A failure that an external tool caused: it could not be launched, it ended without success,
or every timestamp server refused. -/
def isToolFailure : Failure → Bool
  | toolLaunch .. => true
  | toolFailed .. => true
  | timestampExhausted .. => true
  | _ => false

/-- A failure of a file operation: a step on the file tree, or a file pattern. -/
def isFileFailure : Failure → Bool
  | filesystem .. => true
  | pattern .. => true
  | _ => false

theorem isToolFailure_of_isFileFailure {f : Failure} (h : f.isFileFailure = true) :
    f.isToolFailure = false := by
  cases f <;> simp_all [isFileFailure, isToolFailure]

end Failure

namespace ReleaseM

/-! ## The run of a composed computation -/

/-- **Sequencing.** The second computation runs from the machine the first one left, unless the
first failed, which ends the run with the machine as it was then. -/
theorem run'_bind (x : ReleaseM α) (f : α → ReleaseM β) (r : Runner) (m : Machine) :
    (x >>= f).run' r m = (match (x.run' r m).1 with
      | .ok a => (f a).run' r (x.run' r m).2
      | .error e => (.error e, (x.run' r m).2)) := by
  show (ExceptT.bind (x r) (fun a => f a r)) m = _
  simp only [ExceptT.bind, ExceptT.mk, ExceptT.bindCont, bind, StateT.bind, run',
    ReaderT.run, ExceptT.run]
  rcases x r m with ⟨_ | a, m'⟩ <;> rfl

theorem run'_bind_of_ok {x : ReleaseM α} {f : α → ReleaseM β} {r : Runner} {m m' : Machine}
    {a : α} (h : x.run' r m = (.ok a, m')) : (x >>= f).run' r m = (f a).run' r m' := by
  rw [run'_bind, h]

theorem run'_bind_of_error {x : ReleaseM α} {f : α → ReleaseM β} {r : Runner} {m m' : Machine}
    {e : Failure} (h : x.run' r m = (.error e, m')) : (x >>= f).run' r m = (.error e, m') := by
  rw [run'_bind, h]

@[simp] theorem run'_pure (a : α) (r : Runner) (m : Machine) :
    (pure a : ReleaseM α).run' r m = (.ok a, m) := rfl

@[simp] theorem run'_get (r : Runner) (m : Machine) :
    (get : ReleaseM Machine).run' r m = (.ok m, m) := rfl

@[simp] theorem run'_set (m' : Machine) (r : Runner) (m : Machine) :
    (set m' : ReleaseM PUnit).run' r m = (.ok ⟨⟩, m') := rfl

@[simp] theorem run'_modify (g : Machine → Machine) (r : Runner) (m : Machine) :
    (modify g : ReleaseM PUnit).run' r m = (.ok ⟨⟩, g m) := rfl

@[simp] theorem run'_read (r : Runner) (m : Machine) :
    (read : ReleaseM Runner).run' r m = (.ok r, m) := rfl

@[simp] theorem run'_fail (e : Failure) (r : Runner) (m : Machine) :
    (fail e : ReleaseM α).run' r m = (.error e, m) := rfl

/-- A log event only adds to the console. -/
@[simp] theorem run'_log (level : Level) (reporter : Reporter) (message : String) (r : Runner)
    (m : Machine) :
    (log level reporter message).run' r m = (.ok ⟨⟩, m.emit (.log ⟨level, reporter, message⟩)) :=
  rfl

/-- A step on the file tree replaces the tree, or fails naming the action and the path. -/
theorem run'_onFiles (action path : String)
    (step : FileTree → Location → Except IoError (α × FileTree)) (r : Runner) (m : Machine) :
    (onFiles action path step).run' r m = (match step m.files m.cwdLocation with
      | .ok (a, t) => (.ok a, { m with files := t })
      | .error e => (.error (.filesystem action path e), m)) := by
  simp only [onFiles, run'_bind, run'_get]
  rcases step m.files m.cwdLocation with e | ⟨a, t⟩
  · rfl
  · simp only [run'_bind, run'_set, run'_pure]

/-- A step on the file tree that keeps its changes when it fails replaces the tree either way,
and fails naming the action and the path. -/
theorem run'_onFilesPartial (action path : String)
    (step : FileTree → Location → Except IoError α × FileTree) (r : Runner) (m : Machine) :
    (onFilesPartial action path step).run' r m =
      (match (step m.files m.cwdLocation).1 with
        | .ok a => .ok a
        | .error e => .error (.filesystem action path e),
        { m with files := (step m.files m.cwdLocation).2 }) := by
  simp only [onFilesPartial, run'_bind, run'_get]
  rcases step m.files m.cwdLocation with ⟨e | a, t⟩ <;> rfl

/-- **Running a tool.** The runner answers from the machine; a launch failure becomes the
release's failure, naming the tool and the shown command. -/
theorem run'_runTool (tool : String) (cmd : Invocation) (r : Runner) (m : Machine) :
    (runTool tool cmd).run' r m =
      ((match (r.run cmd m).1 with
        | .ok s => .ok s
        | .error e => .error (.toolLaunch tool cmd.display e)), (r.run cmd m).2) := by
  simp only [runTool, run'_bind, run'_read, run'_get, run'_set]
  split <;> simp_all

/-- A checked tool succeeds exactly when it exits with code 0. -/
theorem run'_runChecked (tool : String) (cmd : Invocation) (r : Runner) (m : Machine) :
    (runChecked tool cmd).run' r m =
      ((match (r.run cmd m).1 with
        | .ok s => if s.success then .ok ⟨⟩ else .error (.toolFailed tool cmd.display s)
        | .error e => .error (.toolLaunch tool cmd.display e)), (r.run cmd m).2) := by
  simp only [runChecked, run'_bind, run'_runTool]
  rcases (r.run cmd m).1 with e | s
  · rfl
  · cases h : s.success <;> simp [h]

end ReleaseM

@[simp] theorem Machine.emit_calls (m : Machine) (e : Emission) : (m.emit e).calls = m.calls := rfl

/-! ## Observing the tools a run starts -/

namespace Runner

/-- The runner `r`, with each command it is given kept, as shown and with its directory, at the
end of the machine's calls. Whatever `r` does to the calls is overridden. -/
def recording (r : Runner) : Runner where
  run cmd m :=
    let (result, m') := r.run cmd m
    (result, { m' with calls := m.calls ++ [⟨cmd.display, cmd.cwd⟩] })

/-- A recording runner whose tools answer each call by a function of the calls recorded before it
and of the call itself, and change the machine by `effect` in any way. -/
def responding (answer : List ToolCall → ToolCall → Except IoError ToolStatus)
    (effect : Invocation → Machine → Machine) : Runner :=
  recording ⟨fun cmd m => (answer m.calls ⟨cmd.display, cmd.cwd⟩, effect cmd m)⟩

@[simp] theorem recording_run_calls (r : Runner) (cmd : Invocation) (m : Machine) :
    ((recording r).run cmd m).2.calls = m.calls ++ [⟨cmd.display, cmd.cwd⟩] := rfl

@[simp] theorem recording_run_result (r : Runner) (cmd : Invocation) (m : Machine) :
    ((recording r).run cmd m).1 = (r.run cmd m).1 := rfl

@[simp] theorem responding_run_calls (answer : List ToolCall → ToolCall → Except IoError ToolStatus)
    (effect : Invocation → Machine → Machine) (cmd : Invocation) (m : Machine) :
    ((responding answer effect).run cmd m).2.calls = m.calls ++ [⟨cmd.display, cmd.cwd⟩] := rfl

@[simp] theorem responding_run_result
    (answer : List ToolCall → ToolCall → Except IoError ToolStatus)
    (effect : Invocation → Machine → Machine) (cmd : Invocation) (m : Machine) :
    ((responding answer effect).run cmd m).1 = answer m.calls ⟨cmd.display, cmd.cwd⟩ := rfl

/-- A runner that cannot see secrets: how it answers a command, and what its tool does to the
machine, depend on the command only through its shown form and its directory. -/
def Blind (r : Runner) : Prop :=
  ∀ cmd cmd' m, cmd.display = cmd'.display → cmd.cwd = cmd'.cwd → r.run cmd m = r.run cmd' m

/-- The scripted toolbox matches its rules against the shown command only. -/
theorem scripted_blind : scripted.Blind := by
  intro cmd cmd' m hd hc
  simp only [scripted, hd, hc]

theorem Blind.recording {r : Runner} (h : r.Blind) : r.recording.Blind := by
  intro cmd cmd' m hd hc
  simp only [Runner.recording, h cmd cmd' m hd hc, hd, hc]

end Runner

/-! ## Computations that run no tool, and what a computation fails with -/

/-- A computation is silent when it runs no tool: under every runner it leaves the recorded calls
as they were. -/
def Silent (x : ReleaseM α) : Prop :=
  ∀ r m, (x.run' r m).2.calls = m.calls

/-- Every failure of the computation, under every runner and from every machine, satisfies `P`. -/
def FailsOnly (x : ReleaseM α) (P : Failure → Prop) : Prop :=
  ∀ r m f, (x.run' r m).1 = .error f → P f

/-- A quiet computation runs no tool, and when it fails, a file operation failed. -/
structure Quiet (x : ReleaseM α) : Prop where
  silent : Silent x
  failsOnly : FailsOnly x fun f => f.isFileFailure = true

open ReleaseM

namespace Silent

theorem pure (a : α) : Silent (Pure.pure a : ReleaseM α) := fun _ _ => rfl

theorem fail (e : Failure) : Silent (ReleaseM.fail e : ReleaseM α) := fun _ _ => rfl

theorem fail_bind (e : Failure) (f : α → ReleaseM β) : Silent (ReleaseM.fail e >>= f) := by
  intro r m
  rw [run'_bind_of_error (run'_fail e r m)]

theorem bind {x : ReleaseM α} {f : α → ReleaseM β} (hx : Silent x) (hf : ∀ a, Silent (f a)) :
    Silent (x >>= f) := by
  intro r m
  have hcalls := hx r m
  rw [run'_bind]
  rcases h : x.run' r m with ⟨_ | a, m'⟩ <;> rw [h] at hcalls
  · exact hcalls
  · exact (hf a r m').trans hcalls

end Silent

namespace FailsOnly

variable {P Q : Failure → Prop}

theorem mono {x : ReleaseM α} (hx : FailsOnly x P) (h : ∀ f, P f → Q f) : FailsOnly x Q :=
  fun r m f hf => h f (hx r m f hf)

theorem pure (a : α) : FailsOnly (Pure.pure a : ReleaseM α) P := by
  intro r m f hf
  cases hf

theorem fail {e : Failure} (h : P e) : FailsOnly (ReleaseM.fail e : ReleaseM α) P := by
  rintro r m f ⟨⟩
  exact h

theorem log (level : Level) (reporter : Reporter) (message : String) :
    FailsOnly (ReleaseM.log level reporter message) P := by
  intro r m f hf
  cases hf

theorem bind {x : ReleaseM α} {f : α → ReleaseM β} (hx : FailsOnly x P)
    (hf : ∀ a, FailsOnly (f a) P) : FailsOnly (x >>= f) P := by
  intro r m e he
  rw [run'_bind] at he
  rcases h : x.run' r m with ⟨_ | a, m'⟩ <;> rw [h] at he
  · cases he
    exact hx r m _ (by rw [h])
  · exact hf a r m' e he

/-- A computation that fails first fails with that failure, whatever was to follow. -/
theorem fail_bind {e : Failure} (h : P e) (f : α → ReleaseM β) :
    FailsOnly (ReleaseM.fail e >>= f) P := by
  intro r m g hg
  rw [run'_bind_of_error (run'_fail e r m)] at hg
  cases hg
  exact h

theorem forM {l : List β} {f : β → ReleaseM PUnit} (h : ∀ b ∈ l, FailsOnly (f b) P) :
    FailsOnly (l.forM f) P := by
  induction l with
  | nil => exact pure PUnit.unit
  | cons b l ih =>
    rw [List.forM_eq_forM, List.forM_cons]
    exact (h b (by simp)).bind fun _ => ih fun b' hb' => h b' (by simp [hb'])

/-- A tool that runs fails only because it could not be launched. -/
theorem runTool (tool : String) (cmd : Invocation) :
    FailsOnly (ReleaseM.runTool tool cmd) fun f => f.isToolFailure = true := by
  intro r m f hf
  rw [run'_runTool] at hf
  split at hf
  · cases hf
  · cases hf
    rfl

/-- A checked tool fails only because it could not be launched or did not succeed. -/
theorem runChecked (tool : String) (cmd : Invocation) :
    FailsOnly (ReleaseM.runChecked tool cmd) fun f => f.isToolFailure = true := by
  unfold ReleaseM.runChecked
  refine (runTool tool cmd).bind fun s => ?_
  split
  · exact fail rfl
  · exact pure _

end FailsOnly

namespace Quiet

theorem pure (a : α) : Quiet (Pure.pure a : ReleaseM α) :=
  ⟨Silent.pure a, FailsOnly.pure a⟩

theorem get : Quiet (MonadState.get : ReleaseM Machine) :=
  ⟨fun _ _ => rfl, fun _ _ _ hf => by cases hf⟩

theorem fail {f : Failure} (h : f.isFileFailure = true) : Quiet (ReleaseM.fail f : ReleaseM α) :=
  ⟨Silent.fail f, FailsOnly.fail h⟩

theorem log (level : Level) (reporter : Reporter) (message : String) :
    Quiet (ReleaseM.log level reporter message) :=
  ⟨fun _ _ => rfl, fun _ _ _ hf => by cases hf⟩

theorem bind {x : ReleaseM α} {f : α → ReleaseM β} (hx : Quiet x) (hf : ∀ a, Quiet (f a)) :
    Quiet (x >>= f) :=
  ⟨hx.silent.bind fun a => (hf a).silent, hx.failsOnly.bind fun a => (hf a).failsOnly⟩

theorem onFiles (action path : String) (step : FileTree → Location → Except IoError (α × FileTree)) :
    Quiet (ReleaseM.onFiles action path step) := by
  constructor
  · intro r m
    rw [run'_onFiles]
    split <;> rfl
  · intro r m f hf
    rw [run'_onFiles] at hf
    split at hf
    · cases hf
    · cases hf
      rfl

theorem onFilesPartial (action path : String)
    (step : FileTree → Location → Except IoError α × FileTree) :
    Quiet (ReleaseM.onFilesPartial action path step) := by
  constructor
  · intro r m
    rw [run'_onFilesPartial]
  · intro r m f hf
    rw [run'_onFilesPartial] at hf
    split at hf
    · cases hf
    · cases hf
      rfl

theorem forM {l : List β} {f : β → ReleaseM PUnit} (h : ∀ b ∈ l, Quiet (f b)) :
    Quiet (l.forM f) := by
  induction l with
  | nil => exact pure PUnit.unit
  | cons b l ih =>
    rw [List.forM_eq_forM, List.forM_cons]
    exact (h b (by simp)).bind fun _ => ih fun b' hb' => h b' (by simp [hb'])

theorem mapM {l : List β} {f : β → ReleaseM α} (h : ∀ b ∈ l, Quiet (f b)) :
    Quiet (l.mapM f) := by
  induction l with
  | nil => exact pure []
  | cons b l ih =>
    rw [List.mapM_cons]
    exact (h b (by simp)).bind fun _ =>
      (ih fun b' hb' => h b' (by simp [hb'])).bind fun _ => pure _

end Quiet

/-! ## Every file operation is quiet -/

namespace Files

theorem quiet_ensureDir (path : String) : Quiet (ensureDir path) := by
  unfold ensureDir
  refine Quiet.get.bind fun m => ?_
  split
  · exact Quiet.onFilesPartial _ _ _
  · exact Quiet.pure _

theorem quiet_writeString (path contents : String) : Quiet (writeString path contents) := by
  unfold writeString
  split
  · exact (quiet_ensureDir _).bind fun _ => Quiet.onFiles _ _ _
  · exact Quiet.onFiles _ _ _

theorem quiet_copyTo (src dst : String) : Quiet (copyTo src dst) := by
  unfold copyTo
  exact (Quiet.log _ _ _).bind fun _ => Quiet.onFiles _ _ _

theorem quiet_copyFile (src dstDir : String) : Quiet (copyFile src dstDir) := by
  unfold copyFile
  split
  · exact Quiet.fail rfl
  · exact (quiet_copyTo _ _).bind fun _ => Quiet.pure _

theorem quiet_globFiles [PatternSearch] (pattern : String) : Quiet (globFiles pattern) := by
  unfold globFiles
  refine Quiet.get.bind fun m => ?_
  split
  · exact Quiet.fail rfl
  · exact Quiet.pure _

theorem quiet_copyMatching [PatternSearch] (pattern dstDir : String) (skip : String → Bool) :
    Quiet (copyMatching pattern dstDir skip) := by
  unfold copyMatching
  exact (quiet_globFiles _).bind fun _ => Quiet.mapM fun _ _ => quiet_copyFile _ _

theorem quiet_copyAll [PatternSearch] (srcDir dstDir : String) : Quiet (copyAll srcDir dstDir) :=
  quiet_copyMatching _ _ _

theorem quiet_removeEntry (path : String) : Quiet (removeEntry path) := by
  unfold removeEntry
  refine Quiet.get.bind fun m => ?_
  split
  · exact Quiet.onFiles _ _ _
  · exact Quiet.onFiles _ _ _

theorem quiet_resetDirectory (path : String) : Quiet (resetDirectory path) := by
  unfold resetDirectory
  refine Quiet.get.bind fun m => ?_
  split
  · exact Quiet.onFilesPartial _ _ _
  · exact (Quiet.onFiles _ _ _).bind fun _ => Quiet.forM fun _ _ => quiet_removeEntry _

end Files

namespace Staging

theorem quiet_copyCategory [PatternSearch] (c : ArtifactCategory) (srcDir dstDir : String) :
    Quiet (copyCategory c srcDir dstDir) := by
  unfold copyCategory
  refine Quiet.get.bind fun m => ?_
  split
  · exact (Quiet.log _ _ _).bind fun _ => Files.quiet_copyMatching _ _ _
  · exact Files.quiet_copyMatching _ _ _

theorem quiet_stageArchitecture (scriptDir : String) (buildType : BuildType) (arch : Architecture)
    (layout : BuildLayout) : Quiet (stageArchitecture scriptDir buildType arch layout) := by
  unfold stageArchitecture
  refine (Files.quiet_ensureDir _).bind fun _ => (Files.quiet_ensureDir _).bind fun _ =>
    (Quiet.log _ _ _).bind fun _ => Quiet.forM fun project _ => ?_
  exact (quiet_copyCategory _ _ _).bind fun _ => (quiet_copyCategory _ _ _).bind fun _ =>
    (quiet_copyCategory _ _ _).bind fun _ => Quiet.pure _

end Staging

theorem Packaging.quiet_prepareStaging (c : BuildConfiguration) (staging : String) :
    Quiet (Packaging.prepareStaging c staging) := by
  unfold Packaging.prepareStaging
  refine (Quiet.log _ _ _).bind fun _ => (Files.quiet_resetDirectory _).bind fun _ =>
    (Quiet.forM fun arch _ => ?_).bind fun _ => (Staging.quiet_copyCategory _ _ _).bind fun _ =>
    (Files.quiet_copyAll _ _).bind fun _ => (Quiet.forM fun name _ => ?_).bind fun _ => ?_
  · exact (Files.quiet_ensureDir _).bind fun _ =>
      (Staging.quiet_copyCategory _ _ _).bind fun _ => Quiet.pure _
  · exact (Files.quiet_copyFile _ _).bind fun _ => Quiet.pure _
  · split
    · exact (Files.quiet_copyFile _ _).bind fun _ => Files.quiet_writeString _ _
    · exact Files.quiet_writeString _ _

theorem Release.quiet_writeVersionHeader (scriptDir : String) (v : Version) (now : Timestamp) :
    Quiet (Release.writeVersionHeader scriptDir v now) := by
  unfold Release.writeVersionHeader
  exact (Quiet.log _ _ _).bind fun _ => (Files.quiet_writeString _ _).bind fun _ => Quiet.pure _

end ReleaseBuild
