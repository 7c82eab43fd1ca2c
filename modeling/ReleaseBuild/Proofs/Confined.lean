import ReleaseBuild.Proofs.Run
import ReleaseBuild.Proofs.TreeFrame
/-!
# Computations that write within a region

A release computation changes its files through the file operations and through the tools it
runs. `WritesWithin r cwd R x` says that, run under the runner `r` from any machine whose working
directory is `cwd` and whose tree is validly named, `x` keeps the working directory and changes
the tree within the region `R` (`FileTree.Within`). A runner whose tools change files only at
`W`, and keep the working directory, is `Runner.WritesOnly W`; its tools write within any region
that is free at `W`.

Writing within a region composes: a sequence writes within a region when each part does, and the
region can be widened at will. The one place where a part's region depends on what came before is
the emptying of a directory, which removes its entries by the names it listed; those names are
valid because the tree was validly named when they were listed (`bind_of_returns`).

Each file operation of the release is given its region here, read off the places its paths lead
to (`Proofs.Places`): creating a directory writes along the path's trace, writing or copying a
file writes the file's place, copying into a directory writes the places of its entries, and
emptying a directory may do anything strictly below it, creating it along its trace when it is
missing.
-/

set_option autoImplicit false

namespace ReleaseBuild

open FileTree ReleaseM

variable {α β γ : Type}

/-- A runner whose tools change files only at `W`: they keep the working directory, and change
the tree only at `W`, keeping it validly named. -/
structure Runner.WritesOnly (W : Set Location) (r : Runner) : Prop where
  cwd : ∀ cmd m, (r.run cmd m).2.cwd = m.cwd
  files : ∀ cmd m, Within { free := W } m.files (r.run cmd m).2.files

/-- Under the runner, from every machine whose working directory is `cwd` and whose tree is
validly named, the computation keeps the working directory and changes the tree within the
region. -/
def WritesWithin (r : Runner) (cwd : String) (R : Region) (x : ReleaseM α) : Prop :=
  ∀ m : Machine, m.cwd = cwd → WellNamed m.files →
    (x.run' r m).2.cwd = cwd ∧ Within R m.files (x.run' r m).2.files

/-- The working directory as a location is made of valid names. -/
theorem valid_locationOf (cwd : String) : ∀ n ∈ locationOf cwd, ValidName n := by
  rw [locationOf_eq_place]
  exact valid_place (by simp) cwd

namespace WritesWithin

variable {r : Runner} {cwd : String} {R S : Region}

theorem mono {x : ReleaseM α} (hRS : R ≤ S) (h : WritesWithin r cwd R x) :
    WritesWithin r cwd S x := by
  intro m hcwd hm
  obtain ⟨hcwd', hw⟩ := h m hcwd hm
  exact ⟨hcwd', hw.mono hRS⟩

/-- A computation that leaves the working directory and the tree as they are writes nothing. -/
theorem of_keeps {x : ReleaseM α}
    (h : ∀ m, (x.run' r m).2.cwd = m.cwd ∧ (x.run' r m).2.files = m.files) :
    WritesWithin r cwd R x := by
  intro m hcwd _
  obtain ⟨hc, hf⟩ := h m
  refine ⟨hc.trans hcwd, ?_⟩
  rw [hf]
  exact Within.refl R m.files

theorem pure (a : α) : WritesWithin r cwd R (Pure.pure a : ReleaseM α) :=
  of_keeps fun _ => ⟨rfl, rfl⟩

theorem get : WritesWithin r cwd R (MonadState.get : ReleaseM Machine) :=
  of_keeps fun _ => ⟨rfl, rfl⟩

theorem fail (e : Failure) : WritesWithin r cwd R (ReleaseM.fail e : ReleaseM α) :=
  of_keeps fun _ => ⟨rfl, rfl⟩

theorem log (level : Level) (reporter : Reporter) (message : String) :
    WritesWithin r cwd R (ReleaseM.log level reporter message) :=
  of_keeps fun _ => ⟨rfl, rfl⟩

theorem fail_bind (e : Failure) (f : α → ReleaseM β) :
    WritesWithin r cwd R (ReleaseM.fail e >>= f) :=
  of_keeps fun m => by
    rw [run'_bind_of_error (run'_fail e r m)]
    exact ⟨rfl, rfl⟩

/-- A sequence writes within a region when its second part does for every result the first can
give from a machine it starts on. -/
theorem bind_of_returns {x : ReleaseM α} {f : α → ReleaseM β} {P : α → Prop}
    (hx : WritesWithin r cwd R x)
    (hret : ∀ m, m.cwd = cwd → WellNamed m.files → ∀ a, (x.run' r m).1 = .ok a → P a)
    (hf : ∀ a, P a → WritesWithin r cwd R (f a)) : WritesWithin r cwd R (x >>= f) := by
  intro m hcwd hm
  obtain ⟨hcwd₁, hw₁⟩ := hx m hcwd hm
  have hret' := hret m hcwd hm
  rw [run'_bind]
  rcases h : x.run' r m with ⟨_ | a, m₁⟩ <;> rw [h] at hcwd₁ hw₁ hret'
  · exact ⟨hcwd₁, hw₁⟩
  · -- the second part starts where the first left the tree, still validly named
    obtain ⟨hcwd₂, hw₂⟩ := hf a (hret' a rfl) m₁ hcwd₁ (hw₁.wellNamed hm)
    exact ⟨hcwd₂, hw₁.trans hw₂⟩

theorem bind {x : ReleaseM α} {f : α → ReleaseM β} (hx : WritesWithin r cwd R x)
    (hf : ∀ a, WritesWithin r cwd R (f a)) : WritesWithin r cwd R (x >>= f) :=
  bind_of_returns (P := fun _ => True) hx (fun _ _ _ _ _ => trivial) fun a _ => hf a

theorem forM {l : List γ} {f : γ → ReleaseM PUnit} (h : ∀ c ∈ l, WritesWithin r cwd R (f c)) :
    WritesWithin r cwd R (l.forM f) := by
  induction l with
  | nil => exact pure PUnit.unit
  | cons c l ih =>
    rw [List.forM_eq_forM, List.forM_cons]
    exact (h c (by simp)).bind fun _ => ih fun c' hc' => h c' (by simp [hc'])

theorem mapM {l : List γ} {f : γ → ReleaseM α} (h : ∀ c ∈ l, WritesWithin r cwd R (f c)) :
    WritesWithin r cwd R (l.mapM f) := by
  induction l with
  | nil => exact pure []
  | cons c l ih =>
    rw [List.mapM_cons]
    exact (h c (by simp)).bind fun _ =>
      (ih fun c' hc' => h c' (by simp [hc'])).bind fun _ => pure _

/-- A step on the file tree writes within a region when every change it makes from a validly
named tree, seen from the working directory, does. -/
theorem onFiles {action path : String} {step : FileTree → Location → Except IoError (α × FileTree)}
    (h : ∀ t a t', WellNamed t → step t (locationOf cwd) = .ok (a, t') → Within R t t') :
    WritesWithin r cwd R (onFiles action path step) := by
  intro m hcwd hm
  rw [run'_onFiles]
  have hstep := h m.files
  simp only [Machine.cwdLocation, hcwd] at hstep ⊢
  split
  · rename_i a t hok
    exact ⟨rfl, hstep a t hm hok⟩
  · exact ⟨hcwd, Within.refl R m.files⟩

/-- A step on the file tree that keeps its changes when it fails writes within a region when the
tree it leaves from a validly named tree, seen from the working directory, always does. -/
theorem onFilesPartial {action path : String}
    {step : FileTree → Location → Except IoError α × FileTree}
    (h : ∀ t, WellNamed t → Within R t (step t (locationOf cwd)).2) :
    WritesWithin r cwd R (onFilesPartial action path step) := by
  intro m hcwd hm
  rw [run'_onFilesPartial]
  refine ⟨hcwd, ?_⟩
  rw [Machine.cwdLocation, hcwd]
  exact h m.files hm

/-- A tool writes within every region that is free where its runner's tools may write. -/
theorem runTool {W : Set Location} (hr : r.WritesOnly W) (hW : W ⊆ R.free) (tool : String)
    (cmd : Invocation) : WritesWithin r cwd R (ReleaseM.runTool tool cmd) := by
  intro m hcwd _
  rw [run'_runTool]
  exact ⟨(hr.cwd cmd m).trans hcwd, (hr.files cmd m).mono ⟨by simp, by simp, hW⟩⟩

theorem runChecked {W : Set Location} (hr : r.WritesOnly W) (hW : W ⊆ R.free) (tool : String)
    (cmd : Invocation) : WritesWithin r cwd R (ReleaseM.runChecked tool cmd) := by
  unfold ReleaseM.runChecked
  refine (runTool hr hW tool cmd).bind fun s => ?_
  split
  · exact fail _
  · exact pure _

end WritesWithin

/-! ## The file operations -/

/-- A step that maps a tree to a unit result changed the tree to that one. -/
theorem eq_ok_of_map_eq_ok {e : Except IoError FileTree} {a : Unit} {t : FileTree}
    (h : e.map ((), ·) = .ok (a, t)) : e = .ok t := by
  cases e with
  | error => cases h
  | ok t' =>
    simp only [Except.map, Except.ok.injEq, Prod.mk.injEq] at h
    rw [h.2]

namespace Files

variable {r : Runner} {cwd : String} {R : Region}

/-- Creating a directory with its parents writes along the trace of its path. -/
theorem writesWithin_ensureDir {path : String}
    (hdirs : ∀ loc ∈ trace (locationOf cwd) path, loc ∈ R.dirs ∪ R.free) :
    WritesWithin r cwd R (ensureDir path) := by
  unfold ensureDir
  refine WritesWithin.get.bind fun m => ?_
  split
  · exact WritesWithin.onFilesPartial fun _ _ => within_createDirAll (valid_locationOf cwd) hdirs
  · exact WritesWithin.pure _

/-- Writing a file writes its place, after creating its parent along the parent's trace. -/
theorem writesWithin_writeString {path contents : String}
    (hdirs : ∀ q, Path.parent path = some q →
      ∀ loc ∈ trace (locationOf cwd) q, loc ∈ R.dirs ∪ R.free)
    (hfiles : place (locationOf cwd) path ∈ R.files ∪ R.free) :
    WritesWithin r cwd R (writeString path contents) := by
  have hwrite : WritesWithin r cwd R (onFiles "write file" path
      fun t cwd => (t.writeFile cwd path contents).map ((), ·)) :=
    WritesWithin.onFiles fun t _ t' _ h =>
      within_writeFile (valid_locationOf cwd) hfiles (eq_ok_of_map_eq_ok h)
  unfold writeString
  split
  · rename_i q hq
    exact (writesWithin_ensureDir (hdirs q hq)).bind fun _ => hwrite
  · exact hwrite

/-- A file written under a directory by a valid name: the directories made are the directory's
own, and the file is its entry. -/
theorem writesWithin_writeString_join {dir n contents : String} (hn : ValidName n)
    (hdirs : ∀ loc ∈ trace (locationOf cwd) dir, loc ∈ R.dirs ∪ R.free)
    (hfiles : place (locationOf cwd) dir ++ [n] ∈ R.files ∪ R.free) :
    WritesWithin r cwd R (writeString (Path.join dir n) contents) := by
  refine writesWithin_writeString ?_ ?_
  · exact fun q hq loc hloc => hdirs loc (mem_trace_of_parent_join hn hq hloc)
  · rw [place_join hn]
    exact hfiles

theorem writesWithin_copyTo {src dst : String}
    (hfiles : place (locationOf cwd) dst ∈ R.files ∪ R.free) :
    WritesWithin r cwd R (copyTo src dst) := by
  unfold copyTo
  exact (WritesWithin.log _ _ _).bind fun _ => WritesWithin.onFiles fun t _ t' _ h =>
    within_copy (valid_locationOf cwd) hfiles (eq_ok_of_map_eq_ok h)

/-- Copying a file into a directory writes an entry of that directory, under the file's own
name. -/
theorem writesWithin_copyFile {src dstDir : String}
    (hfiles : ∀ n, ValidName n → place (locationOf cwd) dstDir ++ [n] ∈ R.files ∪ R.free) :
    WritesWithin r cwd R (copyFile src dstDir) := by
  unfold copyFile
  split
  · exact WritesWithin.fail _
  · rename_i name hname
    have hvalid := validName_of_fileName hname
    refine (writesWithin_copyTo ?_).bind fun _ => WritesWithin.pure _
    rw [place_join hvalid]
    exact hfiles name hvalid

theorem writesWithin_globFiles [PatternSearch] (pattern : String) :
    WritesWithin r cwd R (globFiles pattern) := by
  unfold globFiles
  refine WritesWithin.get.bind fun m => ?_
  split
  · exact WritesWithin.fail _
  · exact WritesWithin.pure _

theorem writesWithin_copyMatching [PatternSearch] {pattern dstDir : String} {skip : String → Bool}
    (hfiles : ∀ n, ValidName n → place (locationOf cwd) dstDir ++ [n] ∈ R.files ∪ R.free) :
    WritesWithin r cwd R (copyMatching pattern dstDir skip) := by
  unfold copyMatching
  exact (writesWithin_globFiles _).bind fun _ =>
    WritesWithin.mapM fun _ _ => writesWithin_copyFile hfiles

theorem writesWithin_copyAll [PatternSearch] {srcDir dstDir : String}
    (hfiles : ∀ n, ValidName n → place (locationOf cwd) dstDir ++ [n] ∈ R.files ∪ R.free) :
    WritesWithin r cwd R (copyAll srcDir dstDir) :=
  writesWithin_copyMatching hfiles

/-- Removing an entry may change anything at or below its place. -/
theorem writesWithin_removeEntry {path : String}
    (hfree : ∀ x, place (locationOf cwd) path <+: x → x ∈ R.free) :
    WritesWithin r cwd R (removeEntry path) := by
  unfold removeEntry
  refine WritesWithin.get.bind fun m => ?_
  split
  · exact WritesWithin.onFiles fun t _ t' _ h => within_removeDirAll hfree (eq_ok_of_map_eq_ok h)
  · exact WritesWithin.onFiles fun t _ t' _ h => within_removeFile hfree (eq_ok_of_map_eq_ok h)

/-- Listing a directory of a validly named tree gives valid names. -/
theorem validName_of_readDirectory {path : String} {m : Machine} (hm : WellNamed m.files)
    {names : List String}
    (h : ((onFiles "read directory" path fun t cwd =>
      (t.readDir cwd path).map fun (_, names) => (names, t)).run' r m).1 = .ok names) :
    ∀ n ∈ names, ValidName n := by
  rw [run'_onFiles] at h
  split at h
  · rename_i a t hstep
    cases h
    cases hr : m.files.readDir m.cwdLocation path with
    | error e =>
      rw [hr] at hstep
      cases hstep
    | ok p =>
      obtain ⟨loc, ns⟩ := p
      rw [hr] at hstep
      simp only [Except.map, Except.ok.injEq, Prod.mk.injEq] at hstep
      obtain ⟨rfl, -⟩ := hstep
      obtain ⟨-, rfl⟩ := readDir_eq_ok hr
      exact fun n hn => validName_of_mem_childNames hm hn
  · cases h

/-- **Emptying a directory** may do anything strictly below it, and creates it along its trace
when it is missing: it removes its entries by the names it listed, which are valid. -/
theorem writesWithin_resetDirectory {path : String}
    (hdirs : ∀ loc ∈ trace (locationOf cwd) path, loc ∈ R.dirs ∪ R.free)
    (hfree : ∀ n x, ValidName n → place (locationOf cwd) path ++ [n] <+: x → x ∈ R.free) :
    WritesWithin r cwd R (resetDirectory path) := by
  unfold resetDirectory
  refine WritesWithin.get.bind fun m => ?_
  split
  · exact WritesWithin.onFilesPartial fun _ _ => within_createDirAll (valid_locationOf cwd) hdirs
  · refine WritesWithin.bind_of_returns (P := fun names => ∀ n ∈ names, ValidName n)
      (WritesWithin.onFiles fun t a t' _ h => ?_)
      (fun m' _ hm' names h => validName_of_readDirectory hm' h) fun names hnames => ?_
    · -- listing changes nothing
      cases hr : t.readDir (locationOf cwd) path with
      | error e =>
        rw [hr] at h
        cases h
      | ok p =>
        rw [hr] at h
        simp only [Except.map, Except.ok.injEq, Prod.mk.injEq] at h
        rw [← h.2]
        exact Within.refl R t
    · refine WritesWithin.forM fun name hname => writesWithin_removeEntry fun x hx => ?_
      rw [place_join (hnames name hname)] at hx
      exact hfree name x (hnames name hname) hx

end Files

end ReleaseBuild
