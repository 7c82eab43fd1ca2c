import ReleaseBuild.Proofs.CategoryCopy
/-!
# Runs that keep the tree real

A real tree (`FileTree.Valid`) is one a disk can hold. The file operations of the release keep
it real and keep the working directory a directory: a copy writes a file into a directory where
no directory stood, and a new directory is always made inside a directory. `KeepsReal` says so
of a whole computation; it is built up from the operations the way `Quiet` and `WritesWithin`
are, so that the law of a stage can apply the law of each of its steps to a real tree.

The module ends with the law of `ensureDir` on a path that only goes down (`ensureDir_law`): it
makes missing directories on the way to the path and changes nothing else, and when it succeeds
a directory stands at the path, unless a file already stood there, which it accepts as it is.
-/

set_option autoImplicit false

namespace ReleaseBuild

open FileTree ReleaseM

variable {α β γ : Type}

namespace FileTree

variable {t t' : FileTree} {cwd : Location}

/-! ## Writing files into a real tree -/

/-- Writing over a file keeps a tree real: the file already sits in a directory. -/
theorem Valid.put_over_file (ht : t.Valid) {loc : Location} {c : String} {x : Bool}
    (h : t.get? loc = some (.file c x)) (c' : String) (x' : Bool) :
    (t.put loc (.file c' x')).Valid := by
  have hloc : loc ≠ [] := by
    rintro rfl
    simp at h
  exact ht.put hloc (ht.named _ (mem_entries_of_get? hloc h)) (ht.get?_dropLast h)
    (Or.inr (by simp [h]))

theorem Valid.setContent (ht : t.Valid) (loc : Location) (content : String) :
    (t.setContent loc content).Valid := by
  unfold FileTree.setContent
  split
  · rename_i c x h
    exact ht.put_over_file h _ _
  · exact ht

theorem Valid.setExecutable (ht : t.Valid) (loc : Location) (x : Bool) :
    (t.setExecutable loc x).Valid := by
  unfold FileTree.setExecutable
  split
  · rename_i c y h
    exact ht.put_over_file h _ _
  · exact ht

/-- Opening a file with truncation keeps a tree real: the file is made in the directory the path
resolves in, over nothing or over a file. -/
theorem Valid.openTruncate (ht : t.Valid) (hcwd : ∀ n ∈ cwd, ValidName n)
    (hdir : t.get? cwd = some .directory) {path : String} {x : Bool} {loc : Location}
    (h : t.openTruncate cwd path x = .ok (t', loc)) : t'.Valid := by
  obtain ⟨rfl, hne, hbefore, y, rfl⟩ := openTruncate_eq_ok h
  unfold FileTree.openTruncate at h
  cases hr : t.resolve cwd path with
  | error e =>
    rw [hr] at h
    cases h
  | ok target =>
    rw [hr] at h
    simp only [bind, Except.bind] at h
    split at h
    · cases h
    · rename_i leaf hleaf
      have hloc : place cwd path = target.dir ++ [leaf] := by
        rw [← resolve_location hr, Target.location, hleaf, Option.toList_some]
      refine ht.put hne (valid_place hcwd path) ?_ (Or.inr ?_)
      · rw [hloc, List.dropLast_concat]
        exact ht.resolve_dir (get?_startOf hdir path) hr
      · rcases hbefore with hnone | ⟨c, z, hfile⟩
        · simp [hnone]
        · simp [hfile]

/-- Copying a file keeps a tree real. -/
theorem Valid.copy (ht : t.Valid) (hcwd : ∀ n ∈ cwd, ValidName n)
    (hdir : t.get? cwd = some .directory) {src dst : String} (h : t.copy cwd src dst = .ok t') :
    t'.Valid := by
  unfold FileTree.copy at h
  cases hl : t.lookup cwd src with
  | error e =>
    rw [hl] at h
    cases h
  | ok r =>
    obtain ⟨srcLoc, node⟩ := r
    rw [hl] at h
    dsimp only [bind, Except.bind] at h
    split at h
    · cases h
    · rename_i c x
      cases ho : t.openTruncate cwd dst x with
      | error e =>
        rw [ho] at h
        cases h
      | ok r =>
        obtain ⟨t₁, loc⟩ := r
        rw [ho] at h
        cases h
        exact ((ht.openTruncate hcwd hdir ho).setExecutable _ _).setContent _ _

/-- Writing a whole file keeps a tree real. -/
theorem Valid.writeFile (ht : t.Valid) (hcwd : ∀ n ∈ cwd, ValidName n)
    (hdir : t.get? cwd = some .directory) {path content : String}
    (h : t.writeFile cwd path content = .ok t') : t'.Valid := by
  unfold FileTree.writeFile at h
  cases ho : t.openTruncate cwd path false with
  | error e =>
    rw [ho] at h
    cases h
  | ok o =>
    obtain ⟨t₁, loc⟩ := o
    rw [ho] at h
    cases h
    exact (ht.openTruncate hcwd hdir ho).setContent loc content

/-- Where nothing is free to change, a directory stays a directory. -/
theorem Within.get?_directory {R : Region} (hfree : R.free = ∅) (h : Within R t t') {z : Location}
    (hz : t.get? z = some .directory) : t'.get? z = some .directory := by
  rcases h.allows z with heq | hf | ⟨-, hnone, -⟩ | ⟨-, hb, -⟩
  · rw [← heq, hz]
  · rw [hfree] at hf
    simp at hf
  · rw [hz] at hnone
    cases hnone
  · rw [hz] at hb
    simp at hb

end FileTree

/-! ## Computations that keep the tree real -/

/-- Under the runner, from every machine whose tree is real with its working directory in it,
the computation keeps the working directory, and keeps the tree real with the working directory
in it. -/
def KeepsReal (r : Runner) (x : ReleaseM α) : Prop :=
  ∀ m : Machine, m.files.Valid → m.files.get? m.cwdLocation = some .directory →
    (x.run' r m).2.cwd = m.cwd ∧ (x.run' r m).2.files.Valid ∧
      (x.run' r m).2.files.get? m.cwdLocation = some .directory

namespace KeepsReal

variable {r : Runner}

/-- A computation that leaves the working directory and the tree as they are keeps them real. -/
theorem of_keeps {x : ReleaseM α}
    (h : ∀ m, (x.run' r m).2.cwd = m.cwd ∧ (x.run' r m).2.files = m.files) : KeepsReal r x := by
  intro m ht hcwd
  obtain ⟨hc, hf⟩ := h m
  rw [hf]
  exact ⟨hc, ht, hcwd⟩

theorem pure (a : α) : KeepsReal r (Pure.pure a : ReleaseM α) :=
  of_keeps fun _ => ⟨rfl, rfl⟩

theorem get : KeepsReal r (MonadState.get : ReleaseM Machine) :=
  of_keeps fun _ => ⟨rfl, rfl⟩

theorem fail (e : Failure) : KeepsReal r (ReleaseM.fail e : ReleaseM α) :=
  of_keeps fun _ => ⟨rfl, rfl⟩

theorem log (level : Level) (reporter : Reporter) (message : String) :
    KeepsReal r (ReleaseM.log level reporter message) :=
  of_keeps fun _ => ⟨rfl, rfl⟩

theorem bind {x : ReleaseM α} {f : α → ReleaseM β} (hx : KeepsReal r x)
    (hf : ∀ a, KeepsReal r (f a)) : KeepsReal r (x >>= f) := by
  intro m ht hcwd
  obtain ⟨hc₁, ht₁, hd₁⟩ := hx m ht hcwd
  rw [run'_bind]
  rcases h : x.run' r m with ⟨_ | a, m₁⟩ <;> rw [h] at hc₁ ht₁ hd₁
  · exact ⟨hc₁, ht₁, hd₁⟩
  · -- the second part starts from the working directory the first one kept
    have hloc : m₁.cwdLocation = m.cwdLocation := by
      rw [Machine.cwdLocation, Machine.cwdLocation, hc₁]
    obtain ⟨hc₂, ht₂, hd₂⟩ := hf a m₁ ht₁ (hloc ▸ hd₁)
    exact ⟨hc₂.trans hc₁, ht₂, hloc ▸ hd₂⟩

theorem forM {l : List γ} {f : γ → ReleaseM PUnit} (h : ∀ c ∈ l, KeepsReal r (f c)) :
    KeepsReal r (l.forM f) := by
  induction l with
  | nil => exact pure PUnit.unit
  | cons c l ih =>
    rw [List.forM_eq_forM, List.forM_cons]
    exact (h c (by simp)).bind fun _ => ih fun c' hc' => h c' (by simp [hc'])

theorem mapM {l : List γ} {f : γ → ReleaseM α} (h : ∀ c ∈ l, KeepsReal r (f c)) :
    KeepsReal r (l.mapM f) := by
  induction l with
  | nil => exact pure []
  | cons c l ih =>
    rw [List.mapM_cons]
    exact (h c (by simp)).bind fun _ =>
      (ih fun c' hc' => h c' (by simp [hc'])).bind fun _ => pure _

/-- A step on the file tree keeps it real when every change it makes from a real tree, seen
from a working directory in it, does. -/
theorem onFiles {action path : String}
    {step : FileTree → Location → Except IoError (α × FileTree)}
    (h : ∀ t cwd a t', t.Valid → (∀ n ∈ cwd, ValidName n) → t.get? cwd = some .directory →
      step t cwd = .ok (a, t') → t'.Valid ∧ t'.get? cwd = some .directory) :
    KeepsReal r (ReleaseM.onFiles action path step) := by
  intro m ht hcwd
  rw [run'_onFiles]
  split
  · rename_i a t' hstep
    exact ⟨rfl, h _ _ a t' ht (valid_locationOf m.cwd) hcwd hstep⟩
  · exact ⟨rfl, ht, hcwd⟩

/-- A step that keeps its changes when it fails keeps the tree real when the tree it leaves from
a real tree, seen from a working directory in it, always is. -/
theorem onFilesPartial {action path : String}
    {step : FileTree → Location → Except IoError α × FileTree}
    (h : ∀ t cwd, t.Valid → (∀ n ∈ cwd, ValidName n) → t.get? cwd = some .directory →
      (step t cwd).2.Valid ∧ (step t cwd).2.get? cwd = some .directory) :
    KeepsReal r (ReleaseM.onFilesPartial action path step) := by
  intro m ht hcwd
  rw [run'_onFilesPartial]
  exact ⟨rfl, h _ _ ht (valid_locationOf m.cwd) hcwd⟩

end KeepsReal

/-! ## Relating the trees before and after -/

/-- Under the runner, from every machine on a real tree whose working directory has the place
`cwd`, the tree after the computation is related by `R` to the one before. -/
def Relates (R : FileTree → FileTree → Prop) (r : Runner) (cwd : Location) (x : ReleaseM α) :
    Prop :=
  ∀ m : Machine, m.cwdLocation = cwd → m.files.Valid → m.files.get? cwd = some .directory →
    R m.files (x.run' r m).2.files

namespace Relates

variable {r : Runner} {cwd : Location} {R R₁ R₂ : FileTree → FileTree → Prop}

theorem of_keeps (hrefl : ∀ t, R t t) {x : ReleaseM α}
    (h : ∀ m, (x.run' r m).2.files = m.files) : Relates R r cwd x :=
  fun m _ _ _ => by
    rw [h m]
    exact hrefl _

theorem mono (hR : ∀ t t', R₁ t t' → R₂ t t') {x : ReleaseM α} (hx : Relates R₁ r cwd x) :
    Relates R₂ r cwd x :=
  fun m hcwdl ht hcwd => hR _ _ (hx m hcwdl ht hcwd)

/-- A computation that relates by `R₁` and keeps the tree real, followed by ones that relate by
`R₂`, relates by the composite; where the first fails the run stops, and `R₂` holds as it
holds of every tree with itself. -/
theorem bind_comp (hrefl : ∀ t, R₂ t t) {x : ReleaseM α} {f : α → ReleaseM β}
    (hx : Relates R₁ r cwd x) (hkx : KeepsReal r x) (hf : ∀ a, Relates R₂ r cwd (f a)) :
    Relates (Relation.Comp R₁ R₂) r cwd (x >>= f) := by
  intro m hcwdl ht hcwd
  have hx' := hx m hcwdl ht hcwd
  obtain ⟨hc₁, ht₁, hd₁⟩ := hkx m ht (hcwdl ▸ hcwd)
  rw [run'_bind]
  rcases h : x.run' r m with ⟨_ | a, m₁⟩ <;> rw [h] at hx' hc₁ ht₁ hd₁
  · exact ⟨_, hx', hrefl _⟩
  · -- the rest runs from the same working directory, on a real tree
    have hloc : m₁.cwdLocation = cwd := by
      rw [Machine.cwdLocation, hc₁]
      exact hcwdl
    rw [hcwdl] at hd₁
    exact ⟨_, hx', hf a m₁ hloc ht₁ hd₁⟩

section Preorder

variable (hrefl : ∀ t, R t t) (htrans : ∀ t₁ t₂ t₃, R t₁ t₂ → R t₂ t₃ → R t₁ t₃)
include hrefl htrans

theorem bind {x : ReleaseM α} {f : α → ReleaseM β} (hx : Relates R r cwd x)
    (hkx : KeepsReal r x) (hf : ∀ a, Relates R r cwd (f a)) : Relates R r cwd (x >>= f) :=
  (bind_comp hrefl hx hkx hf).mono fun _ _ ⟨_, h₁, h₂⟩ => htrans _ _ _ h₁ h₂

theorem forM {l : List γ} {f : γ → ReleaseM PUnit} (h : ∀ c ∈ l, Relates R r cwd (f c))
    (hk : ∀ c ∈ l, KeepsReal r (f c)) : Relates R r cwd (l.forM f) := by
  induction l with
  | nil => exact of_keeps hrefl fun _ => rfl
  | cons c l ih =>
    rw [List.forM_eq_forM, List.forM_cons]
    exact bind hrefl htrans (h c (by simp)) (hk c (by simp)) fun _ =>
      ih (fun c' hc' => h c' (by simp [hc'])) fun c' hc' => hk c' (by simp [hc'])

end Preorder

end Relates

namespace Files

variable {r : Runner}

theorem keepsReal_ensureDir (path : String) : KeepsReal r (ensureDir path) := by
  unfold ensureDir
  refine KeepsReal.get.bind fun m => ?_
  split
  · exact KeepsReal.onFilesPartial fun t cwd ht hcwd hdir => by
      rw [createDirAll_snd]
      exact ht.leftBy_makeDirAllFuel hcwd hdir _ _
  · exact KeepsReal.pure _

/-- A copy keeps a tree real and writes over no directory. -/
theorem keepsReal_copyTo (src dst : String) : KeepsReal r (copyTo src dst) := by
  unfold copyTo
  refine (KeepsReal.log _ _ _).bind fun _ => KeepsReal.onFiles fun t cwd _ t' ht hcwd hdir h => ?_
  have hcopy := eq_ok_of_map_eq_ok h
  exact ⟨ht.copy hcwd hdir hcopy,
    (within_copy (R := { files := {place cwd dst} }) hcwd (Or.inl rfl) hcopy).get?_directory rfl
      hdir⟩

theorem keepsReal_copyFile (src dstDir : String) : KeepsReal r (copyFile src dstDir) := by
  unfold copyFile
  split
  · exact KeepsReal.fail _
  · exact (keepsReal_copyTo _ _).bind fun _ => KeepsReal.pure _

theorem keepsReal_writeString (path contents : String) :
    KeepsReal r (writeString path contents) := by
  have hwrite : KeepsReal r (ReleaseM.onFiles "write file" path fun t cwd =>
      (t.writeFile cwd path contents).map ((), ·)) :=
    KeepsReal.onFiles fun t cwd _ t' ht hcwd hdir h => by
      have hw := eq_ok_of_map_eq_ok h
      exact ⟨ht.writeFile hcwd hdir hw,
        (within_writeFile (R := { files := {place cwd path} }) hcwd (Or.inl rfl) hw).get?_directory
          rfl hdir⟩
  unfold writeString
  split
  · exact (keepsReal_ensureDir _).bind fun _ => hwrite
  · exact hwrite

theorem keepsReal_globFiles [PatternSearch] (pattern : String) : KeepsReal r (globFiles pattern) := by
  unfold globFiles
  refine KeepsReal.get.bind fun m => ?_
  split
  · exact KeepsReal.fail _
  · exact KeepsReal.pure _

theorem keepsReal_copyMatching [PatternSearch] (pattern dstDir : String) (skip : String → Bool) :
    KeepsReal r (copyMatching pattern dstDir skip) := by
  unfold copyMatching
  exact (keepsReal_globFiles _).bind fun _ =>
    KeepsReal.mapM fun _ _ => keepsReal_copyFile _ _

theorem keepsReal_copyAll [PatternSearch] (srcDir dstDir : String) :
    KeepsReal r (copyAll srcDir dstDir) :=
  keepsReal_copyMatching _ _ _

end Files

theorem Staging.keepsReal_copyCategory [PatternSearch] {r : Runner} (c : ArtifactCategory)
    (srcDir dstDir : String) :
    KeepsReal r (Staging.copyCategory c srcDir dstDir) := by
  unfold Staging.copyCategory
  refine KeepsReal.get.bind fun m => ?_
  split
  · exact (KeepsReal.log _ _ _).bind fun _ => Files.keepsReal_copyMatching _ _ _
  · exact Files.keepsReal_copyMatching _ _ _

/-! ## Ensuring a directory -/

namespace Files

/-- Ensuring a directory does nothing where something exists, and otherwise creates the
directory with its parents, failing as that fails, with the directories made before. -/
theorem run'_ensureDir (path : String) (r : Runner) (m : Machine) :
    (ensureDir path).run' r m =
      if m.files.exists? m.cwdLocation path then (.ok (), m)
      else match m.files.makeDirAll m.cwdLocation path with
        | .ok t' => (.ok (), { m with files := t' })
        | .error (e, t') => (.error (.filesystem "create directory" path e), { m with files := t' }) := by
  unfold ensureDir
  cases hex : m.files.exists? m.cwdLocation path <;>
    simp only [run'_bind, run'_get, run'_onFilesPartial, hex, Bool.not_false, Bool.not_true,
      if_true, if_false, Bool.false_eq_true, run'_pure, createDirAll]
  cases m.files.makeDirAll m.cwdLocation path with
  | ok t' => rfl
  | error err =>
    obtain ⟨e, t'⟩ := err
    rfl

/-- **Ensuring a directory.** For a path that only goes down, from a real tree: every location
is left as it was, except missing ones on the way to the path's place, which may become
directories, whether the run succeeds or fails; and when it succeeds, a directory stands at the
path's place, unless a file stood there before. -/
theorem ensureDir_law (r : Runner) (m : Machine)
    (hcwd : m.files.get? m.cwdLocation = some .directory) {path : String} (hdown : Downward path) :
    (∀ z, ((ensureDir path).run' r m).2.files.get? z = m.files.get? z ∨
      (z <+: place m.cwdLocation path ∧ m.files.get? z = none ∧
        ((ensureDir path).run' r m).2.files.get? z = some .directory)) ∧
    (((ensureDir path).run' r m).1 = .ok () →
      m.files.isFileAt (place m.cwdLocation path) = false →
      ((ensureDir path).run' r m).2.files.get? (place m.cwdLocation path) = some .directory) := by
  rw [run'_ensureDir]
  by_cases hex : m.files.exists? m.cwdLocation path = true
  · -- something is there already: nothing changes, and it is a directory unless a file
    rw [if_pos hex]
    refine ⟨fun z => Or.inl rfl, fun _ hfile => ?_⟩
    obtain ⟨loc, n, hlook⟩ := exists?_eq_true_iff.1 hex
    obtain ⟨rfl, hget⟩ := lookup_eq_ok hlook
    cases n with
    | directory => exact hget
    | file c x => simp [isFileAt, hget] at hfile
  · rw [if_neg hex]
    -- the directories made, also before a failure, are missing locations of the path's trace
    have hframe := get?_leftBy_makeDirAllFuel (t := m.files) (valid_locationOf m.cwd)
      (path.length + 1) path
    have hmade : ∀ z, (leftBy (m.files.makeDirAll m.cwdLocation path)).get? z = m.files.get? z ∨
        (z <+: place m.cwdLocation path ∧ m.files.get? z = none ∧
          (leftBy (m.files.makeDirAll m.cwdLocation path)).get? z = some .directory) :=
      fun z => (hframe z).imp_right fun hmade =>
        ⟨(prefix_of_mem_trace hdown hmade.1).2, hmade.2⟩
    cases hmk : m.files.makeDirAll m.cwdLocation path with
    | error err =>
      obtain ⟨e, t'⟩ := err
      rw [hmk] at hmade
      exact ⟨hmade, fun h => by cases h⟩
    | ok t' =>
      rw [hmk] at hmade
      refine ⟨hmade, fun _ _ => ?_⟩
      exact makeDirAllFuel_place hcwd (Nat.lt_succ_self _) hmk

end Files

end ReleaseBuild
