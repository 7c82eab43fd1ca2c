import Mathlib.Data.List.Basic
import ReleaseBuild.Proofs.Places
import ReleaseBuild.Proofs.GlobEscape
import ReleaseBuild.Proofs.Accepted
import ReleaseBuild.Proofs.Protocol
/-!
# Absolute paths read the same from every working directory

A path that starts with `/` is read from the root, so what the file tree answers for it does not
depend on the working directory. This module carries that fact up through everything the release
does with files:

* every operation of the tree on an absolute path is the operation seen from the root
  (`FileTree.resolve_root` and the lemmas beside it); creating a directory with its parents too,
  since the parent of an absolute path is absolute (`Path.isAbsolute_parent`);
* the walk of an absolute pattern visits absolute paths only, so it finds the same paths from
  every working directory, all of them absolute (`GlobWalk.paths_root`);
* `CwdFree x` says that `x`, run from a machine moved to another working directory, answers the
  same and leaves the machine it left, moved there too. It is built up the way `Quiet` is, and
  the file operations of a release on absolute paths have it, and so has preparing the
  installer's staging directory of a configuration whose paths are absolute
  (`Packaging.cwdFree_prepareStaging`).

A machine's working directory may lie anywhere, even inside a directory that a release empties.
A law about a computation of this kind is therefore proved from the root, where the working
directory is a directory that nothing removes, and carried to every other working directory.
-/

set_option autoImplicit false

namespace ReleaseBuild

open ReleaseM

variable {α β γ : Type}

namespace Path

/-- The parent of an absolute path is absolute: it is a cut of the path after its root. -/
theorem isAbsolute_parent {p q : String} (h : parent p = some q) (hp : isAbsolute p = true) :
    isAbsolute q = true := by
  obtain ⟨j, -, -, hpos, hq⟩ := parent_eq_take h
  have hj := hpos hp
  simp only [isAbsolute, String.startsWith_string_iff] at hp ⊢
  obtain ⟨rest, hrest⟩ := hp
  rw [hq, ← hrest]
  obtain ⟨k, rfl⟩ := Nat.exists_eq_add_of_lt hj
  simp

end Path

/-! ## The tree, read from the root -/

namespace FileTree

variable {t : FileTree} {cwd : Location} {path src dst : String}

theorem resolve_root (h : Path.isAbsolute path = true) :
    t.resolve cwd path = t.resolve [] path := by
  have hs : path.startsWith "/" = true := h
  simp only [resolve, hs, if_true]

theorem lookup_root (h : Path.isAbsolute path = true) : t.lookup cwd path = t.lookup [] path := by
  unfold lookup
  rw [resolve_root h]

theorem stat_root (h : Path.isAbsolute path = true) : t.stat cwd path = t.stat [] path := by
  unfold stat
  rw [lookup_root h]

theorem exists?_root (h : Path.isAbsolute path = true) :
    t.exists? cwd path = t.exists? [] path := by
  unfold FileTree.exists?
  rw [stat_root h]

theorem isFile?_root (h : Path.isAbsolute path = true) :
    t.isFile? cwd path = t.isFile? [] path := by
  unfold isFile?
  rw [stat_root h]

theorem isDirectory?_root (h : Path.isAbsolute path = true) :
    t.isDirectory? cwd path = t.isDirectory? [] path := by
  unfold isDirectory?
  rw [stat_root h]

theorem makeDir_root (h : Path.isAbsolute path = true) :
    t.makeDir cwd path = t.makeDir [] path := by
  unfold makeDir
  rw [resolve_root h]

theorem openTruncate_root (h : Path.isAbsolute path = true) (x : Bool) :
    t.openTruncate cwd path x = t.openTruncate [] path x := by
  unfold openTruncate
  rw [resolve_root h]

theorem writeFile_root (h : Path.isAbsolute path = true) (content : String) :
    t.writeFile cwd path content = t.writeFile [] path content := by
  unfold writeFile
  rw [openTruncate_root h]

theorem readDir_root (h : Path.isAbsolute path = true) :
    t.readDir cwd path = t.readDir [] path := by
  unfold readDir
  rw [lookup_root h]

theorem removeFile_root (h : Path.isAbsolute path = true) :
    t.removeFile cwd path = t.removeFile [] path := by
  unfold removeFile
  rw [lookup_root h]

theorem removeDirAll_root (h : Path.isAbsolute path = true) :
    t.removeDirAll cwd path = t.removeDirAll [] path := by
  unfold removeDirAll
  rw [lookup_root h]

theorem copy_root (hsrc : Path.isAbsolute src = true) (hdst : Path.isAbsolute dst = true) :
    t.copy cwd src dst = t.copy [] src dst := by
  unfold copy
  simp only [lookup_root hsrc, openTruncate_root hdst]

/-- Creating a directory with its parents: each parent made on the way is absolute too. -/
theorem makeDirAllFuel_root (fuel : Nat) (h : Path.isAbsolute path = true) :
    makeDirAllFuel cwd fuel t path = makeDirAllFuel [] fuel t path := by
  induction fuel generalizing t path with
  | zero => rfl
  | succ fuel ih =>
    simp only [makeDirAllFuel, makeDir_root h, isDirectory?_root h]
    cases hp : Path.parent path with
    | none => rfl
    | some p => simp only [ih (Path.isAbsolute_parent hp h)]

theorem makeDirAll_root (h : Path.isAbsolute path = true) :
    t.makeDirAll cwd path = t.makeDirAll [] path :=
  makeDirAllFuel_root _ h

theorem createDirAll_root (h : Path.isAbsolute path = true) :
    t.createDirAll cwd path = t.createDirAll [] path := by
  unfold createDirAll
  rw [makeDirAll_root h]

end FileTree

/-! ## Walking an absolute pattern -/

namespace GlobWalk

namespace Walk

variable (w : Walk)

/-- A path one level below an absolute path is absolute. -/
theorem isAbsolute_child {P : String} (hP : Path.isAbsolute P = true) (name : String) :
    Path.isAbsolute (child P name) = true := by
  have hdot : P ≠ "." := by
    rintro rfl
    simp [Path.isAbsolute] at hP
  rw [child, if_neg (by simpa using hdot)]
  exact Path.isAbsolute_join name hP

/-- The same walk, seen from the root. -/
def atRoot : Walk := { w with cwd := [] }

@[simp] theorem atRoot_tree : w.atRoot.tree = w.tree := rfl
@[simp] theorem atRoot_cwd : w.atRoot.cwd = [] := rfl
@[simp] theorem atRoot_pieces : w.atRoot.pieces = w.pieces := rfl
@[simp] theorem atRoot_requireDir : w.atRoot.requireDir = w.requireDir := rfl
@[simp] theorem atRoot_isLast (i : Nat) : w.atRoot.isLast i = w.isLast i := rfl
@[simp] theorem atRoot_runEnd (fuel i : Nat) : w.atRoot.runEnd fuel i = w.runEnd fuel i := by
  induction fuel generalizing i with
  | zero => rfl
  | succ fuel ih => simp only [runEnd, atRoot_pieces, ih]
@[simp] theorem atRoot_isRecursiveAt (i : Nat) : w.atRoot.isRecursiveAt i = w.isRecursiveAt i := rfl
@[simp] theorem atRoot_finish (v : Visit) : w.atRoot.finish v = w.finish v := rfl

theorem visit_root {P : String} (hP : Path.isAbsolute P = true) : w.atRoot.visit P = w.visit P := by
  simp only [visit, atRoot_tree, atRoot_cwd, FileTree.isDirectory?_root hP]

/-- Two lists of paths that are equal and hold absolute paths only. -/
def SameAbsolute (xs ys : List String) : Prop := xs = ys ∧ ∀ p ∈ xs, Path.isAbsolute p = true

theorem SameAbsolute.nil : SameAbsolute [] [] := ⟨rfl, fun _ h => absurd h List.not_mem_nil⟩

theorem SameAbsolute.singleton {p : String} (h : Path.isAbsolute p = true) :
    SameAbsolute [p] [p] := ⟨rfl, fun _ hq => List.mem_singleton.1 hq ▸ h⟩

theorem SameAbsolute.append {xs ys xs' ys' : List String} (h : SameAbsolute xs ys)
    (h' : SameAbsolute xs' ys') : SameAbsolute (xs ++ xs') (ys ++ ys') := by
  refine ⟨by rw [h.1, h'.1], fun p hp => ?_⟩
  rcases List.mem_append.1 hp with hp | hp
  · exact h.2 p hp
  · exact h'.2 p hp

theorem SameAbsolute.flatMap {l : List γ} {f g : γ → List String}
    (h : ∀ x ∈ l, SameAbsolute (f x) (g x)) : SameAbsolute (l.flatMap f) (l.flatMap g) := by
  refine ⟨List.flatMap_congr fun x hx => (h x hx).1, fun p hp => ?_⟩
  obtain ⟨x, hx, hpx⟩ := List.mem_flatMap.1 hp
  exact (h x hx).2 p hpx

theorem SameAbsolute.ite {c : Prop} [Decidable c] {xs ys xs' ys' : List String}
    (hpos : c → SameAbsolute xs xs') (hneg : ¬c → SameAbsolute ys ys') :
    SameAbsolute (if c then xs else ys) (if c then xs' else ys') := by
  by_cases hc : c
  · simpa only [if_pos hc] using hpos hc
  · simpa only [if_neg hc] using hneg hc

theorem SameAbsolute.finish {v : Visit} (hv : Path.isAbsolute v.path = true) :
    SameAbsolute (w.finish v) (w.finish v) := by
  unfold Walk.finish
  split
  · exact SameAbsolute.nil
  · exact SameAbsolute.singleton hv

/-- **The walk from the root.** Below an absolute path, the walk finds from every working
directory what it finds from the root, and only absolute paths. The induction is on the fuel, for
the three functions of the walk at once. -/
theorem expand_root (fuel : Nat) :
    (∀ i v, Path.isAbsolute v.path = true →
      SameAbsolute (w.expand fuel i v) (w.atRoot.expand fuel i v)) ∧
    (∀ i v, Path.isAbsolute v.path = true →
      SameAbsolute (w.visitAt fuel i v) (w.atRoot.visitAt fuel i v)) ∧
    (∀ i v, Path.isAbsolute v.path = true →
      SameAbsolute (w.matchName fuel i v) (w.atRoot.matchName fuel i v)) := by
  induction fuel with
  | zero => exact ⟨fun _ _ _ => by simpa [expand] using SameAbsolute.nil,
      fun _ _ _ => by simpa [visitAt] using SameAbsolute.nil,
      fun _ _ _ => by simpa [matchName] using SameAbsolute.nil⟩
  | succ fuel ih =>
    obtain ⟨hexpand, hvisit, hmatch⟩ := ih
    -- a path that every piece has matched, or the walk on from it
    have haccept : ∀ i (v : Visit), Path.isAbsolute v.path = true →
        SameAbsolute (if w.isLast i then w.finish v else w.expand fuel (i + 1) v)
          (if w.isLast i then w.finish v else w.atRoot.expand fuel (i + 1) v) := fun i v hv =>
      SameAbsolute.ite (fun _ => SameAbsolute.finish w hv) fun _ => hexpand (i + 1) v hv
    refine ⟨fun i v hv => ?_, fun i v hv => ?_, fun i v hv => ?_⟩
    · rw [expand, expand]
      simp only [atRoot_pieces, atRoot_isLast, atRoot_finish, atRoot_tree, atRoot_cwd]
      cases hp : w.pieces[i]? with
      | none => exact SameAbsolute.nil
      | some p =>
        dsimp only
        cases hl : p.literalText? with
        | some s =>
          -- a literal name is looked up below the path
          dsimp only
          have hc : Path.isAbsolute (w.visit (child v.path s)).path = true := isAbsolute_child hv s
          rw [visit_root w (isAbsolute_child hv s), FileTree.exists?_root hc]
          exact SameAbsolute.ite (fun _ => haccept i _ hc) fun _ => SameAbsolute.nil
        | none =>
          -- any other piece is matched against the listing of the path
          dsimp only
          rw [FileTree.readDir_root hv]
          refine SameAbsolute.ite (fun _ => SameAbsolute.nil) fun _ => ?_
          cases w.tree.readDir [] v.path with
          | error e => exact SameAbsolute.nil
          | ok listing =>
            refine SameAbsolute.append (SameAbsolute.flatMap fun name _ => ?_) ?_
            · rw [visit_root w (isAbsolute_child hv name)]
              exact hvisit i _ (isAbsolute_child hv name)
            · refine SameAbsolute.ite (fun _ => SameAbsolute.flatMap fun s _ => ?_)
                fun _ => SameAbsolute.nil
              rw [visit_root w (Path.isAbsolute_join s hv)]
              exact SameAbsolute.ite (fun _ => haccept i _ (Path.isAbsolute_join s hv))
                fun _ => SameAbsolute.nil
    · -- a `**` piece keeps the path when it is a directory and walks on below it
      rw [visitAt, visitAt, atRoot_isRecursiveAt, atRoot_pieces, atRoot_runEnd]
      dsimp only
      refine SameAbsolute.ite (fun _ => ?_) fun _ => hmatch i v hv
      refine SameAbsolute.ite (fun _ => ?_) fun _ =>
        SameAbsolute.ite (fun _ => SameAbsolute.nil) fun _ => hmatch _ v hv
      refine SameAbsolute.ite (fun _ => ?_) fun _ => (hexpand _ v hv).append (hmatch _ v hv)
      exact ⟨by rw [(hexpand _ v hv).1], fun p hp => by
        rcases List.mem_cons.1 hp with rfl | hp
        · exact hv
        · exact (hexpand _ v hv).2 p hp⟩
    · rw [matchName, matchName, atRoot_pieces]
      cases w.pieces[i]? with
      | none => exact SameAbsolute.nil
      | some p =>
        cases Path.fileName v.path with
        | none => exact SameAbsolute.nil
        | some name =>
          dsimp only
          rw [atRoot_isLast, atRoot_requireDir]
          exact SameAbsolute.ite (fun _ => SameAbsolute.ite (fun _ => SameAbsolute.ite
            (fun _ => SameAbsolute.singleton hv) fun _ => SameAbsolute.nil)
            fun _ => hexpand _ v hv) fun _ => SameAbsolute.nil

/-- The walk from the root directory finds what it finds from the working directory. -/
theorem expand_slash (fuel i : Nat) :
    SameAbsolute (w.expand fuel i (w.visit "/")) (w.atRoot.expand fuel i (w.atRoot.visit "/")) := by
  have hslash : Path.isAbsolute "/" = true := by simp [Path.isAbsolute]
  rw [visit_root w hslash]
  exact (expand_root w fuel).1 i _ hslash

end Walk

/-- **An absolute pattern.** Its walk finds from every working directory what it finds from the
root, and every path it finds is absolute. -/
theorem paths_root (t : FileTree) (cwd : Location) {pattern : String}
    (h : Path.isAbsolute pattern = true) :
    paths t cwd pattern = paths t [] pattern ∧
      ∀ found, paths t [] pattern = .ok found → ∀ p ∈ found, Path.isAbsolute p = true := by
  have hroot : rootLength pattern = 1 := by
    simp only [rootLength, show pattern.startsWith "/" = true from h, if_true]
  simp only [paths, hroot, bind, Except.bind]
  cases GlobPattern.parse pattern with
  | error e => exact ⟨rfl, fun _ h => nomatch h⟩
  | ok _ =>
    dsimp only
    cases parsePieces (pieces (String.ofList (pattern.toList.drop 1))) with
    | error e => exact ⟨rfl, fun _ h => nomatch h⟩
    | ok ps =>
      have hsame := Walk.expand_slash ⟨t, cwd, ps, pattern.endsWith "/"⟩
        (4 * (ps.length + t.entries.length + 4)) 0
      simp only [show ((1 : Nat) == 0) = false from rfl, Bool.false_eq_true, if_false, pure,
        Except.pure]
      split
      · exact ⟨rfl, fun found hfound p hp => by cases hfound; cases hp⟩
      · refine ⟨congrArg Except.ok hsame.1, fun found hfound p hp => ?_⟩
        cases hfound
        exact hsame.2 p (by rw [hsame.1]; exact hp)

end GlobWalk

/-- What the glob crate documents of an absolute pattern: it is matched from the root of the
file system, so it finds the same paths whatever the working directory, and the paths it yields
keep the pattern's root. -/
class PatternSearch.FromRoot [PatternSearch] : Prop where
  /-- An absolute pattern finds from every working directory what it finds from the root. -/
  paths_root : ∀ t cwd pattern, Path.isAbsolute pattern = true →
    PatternSearch.paths t cwd pattern = PatternSearch.paths t [] pattern
  /-- Every path an absolute pattern finds is absolute. -/
  absolute : ∀ t pattern found, Path.isAbsolute pattern = true →
    PatternSearch.paths t [] pattern = .ok found → ∀ p ∈ found, Path.isAbsolute p = true

/-- The walk reads an absolute pattern from the root. -/
instance : PatternSearch.FromRoot where
  paths_root t cwd _ h := (GlobWalk.paths_root t cwd h).1
  absolute t _ found h hfound := (GlobWalk.paths_root t [] h).2 found hfound

/-! ## Computations that run the same from every working directory -/

/-- A computation that runs the same from every working directory: from a machine moved to
another working directory it answers as from the machine itself, and leaves the machine it left
there, moved as well. -/
def CwdFree (x : ReleaseM α) : Prop :=
  ∀ r m cwd, x.run' r { m with cwd := cwd } = ((x.run' r m).1, { (x.run' r m).2 with cwd := cwd })

namespace CwdFree

theorem pure (a : α) : CwdFree (Pure.pure a : ReleaseM α) := fun _ _ _ => rfl

theorem fail (e : Failure) : CwdFree (ReleaseM.fail e : ReleaseM α) := fun _ _ _ => rfl

theorem log (level : Level) (reporter : Reporter) (message : String) :
    CwdFree (ReleaseM.log level reporter message) := fun _ _ _ => rfl

theorem bind {x : ReleaseM α} {f : α → ReleaseM β} (hx : CwdFree x)
    (hf : ∀ a, CwdFree (f a)) :
    CwdFree (x >>= f) := by
  intro r m cwd
  rw [run'_bind, run'_bind, hx r m cwd]
  rcases x.run' r m with ⟨_ | a, m₁⟩
  · rfl
  · exact hf a r m₁ cwd

/-- A computation followed by ones that run the same for every result it can give. -/
theorem bind_of_returns {x : ReleaseM α} {f : α → ReleaseM β} {P : α → Prop}
    (hx : CwdFree x)
    (hret : Returns x P) (hf : ∀ a, P a → CwdFree (f a)) : CwdFree (x >>= f) := by
  intro r m cwd
  rw [run'_bind, run'_bind, hx r m cwd]
  rcases hrun : x.run' r m with ⟨_ | a, m₁⟩
  · rfl
  · exact hf a (hret r m a (by rw [hrun])) r m₁ cwd

/-- A computation that reads the machine runs the same from every working directory when what it
reads does not depend on the working directory. -/
theorem get_bind {f : Machine → ReleaseM α} (hf : ∀ m, CwdFree (f m))
    (hcongr : ∀ m cwd, f { m with cwd := cwd } = f m) : CwdFree (get >>= f) := by
  intro r m cwd
  simp only [run'_bind, run'_get]
  rw [hcongr m cwd]
  exact hf m r m cwd

/-- A step on the file tree runs the same from every working directory when it does the same
seen from every location. -/
theorem onFiles {action path : String}
    {step : FileTree → Location → Except IoError (α × FileTree)}
    (h : ∀ t cwd, step t cwd = step t []) : CwdFree (ReleaseM.onFiles action path step) := by
  intro r m cwd
  rw [run'_onFiles, run'_onFiles]
  simp only [Machine.cwdLocation]
  rw [h m.files (FileTree.locationOf cwd), h m.files (FileTree.locationOf m.cwd)]
  rcases step m.files [] with e | ⟨a, t⟩ <;> rfl

/-- The same for a step that keeps the tree it leaves when it fails. -/
theorem onFilesPartial {action path : String}
    {step : FileTree → Location → Except IoError α × FileTree}
    (h : ∀ t cwd, step t cwd = step t []) :
    CwdFree (ReleaseM.onFilesPartial action path step) := by
  intro r m cwd
  rw [run'_onFilesPartial, run'_onFilesPartial]
  simp only [Machine.cwdLocation]
  rw [h m.files (FileTree.locationOf cwd), h m.files (FileTree.locationOf m.cwd)]

theorem forM {l : List γ} {f : γ → ReleaseM PUnit} (h : ∀ c ∈ l, CwdFree (f c)) :
    CwdFree (l.forM f) := by
  induction l with
  | nil => exact pure PUnit.unit
  | cons c l ih =>
    rw [List.forM_eq_forM, List.forM_cons]
    exact (h c (by simp)).bind fun _ => ih fun c' hc' => h c' (by simp [hc'])

theorem mapM {l : List γ} {f : γ → ReleaseM α} (h : ∀ c ∈ l, CwdFree (f c)) :
    CwdFree (l.mapM f) := by
  induction l with
  | nil => exact pure []
  | cons c l ih =>
    rw [List.mapM_cons]
    exact (h c (by simp)).bind fun _ =>
      (ih fun c' hc' => h c' (by simp [hc'])).bind fun _ => pure _

/-- **Running from the root.** A computation that runs the same from every working directory runs
from a machine as it runs from the machine moved to the root, moved back after. -/
theorem run'_eq_root {x : ReleaseM α} (hx : CwdFree x) (r : Runner) (m : Machine) :
    x.run' r m = ((x.run' r { m with cwd := "/" }).1,
      { (x.run' r { m with cwd := "/" }).2 with cwd := m.cwd }) := by
  rw [← hx r { m with cwd := "/" } m.cwd]

end CwdFree

/-! ## The file operations of a release on absolute paths -/

theorem GlobPattern.isAbsolute_escape {text : String} (h : Path.isAbsolute text = true) :
    Path.isAbsolute (GlobPattern.escape text) = true := by
  simp only [Path.isAbsolute, String.startsWith_string_iff, GlobPattern.toList_escape] at h ⊢
  obtain ⟨rest, hrest⟩ := h
  rw [← hrest]
  simp [GlobPattern.escapeChar, GlobPattern.isSpecial]

namespace Files

variable {path src dst : String}

theorem cwdFree_ensureDir (h : Path.isAbsolute path = true) : CwdFree (ensureDir path) := by
  unfold ensureDir
  refine CwdFree.get_bind (fun m => ?_) fun m cwd => ?_
  · split
    · exact CwdFree.onFilesPartial fun t cwd => FileTree.createDirAll_root h
    · exact CwdFree.pure _
  · simp only [Machine.cwdLocation, FileTree.exists?_root h]

theorem cwdFree_writeString (h : Path.isAbsolute path = true) (contents : String) :
    CwdFree (writeString path contents) := by
  have hwrite : CwdFree (ReleaseM.onFiles "write file" path fun t cwd =>
      (t.writeFile cwd path contents).map ((), ·)) :=
    CwdFree.onFiles fun t cwd => by rw [FileTree.writeFile_root h]
  unfold writeString
  split
  · rename_i parent hparent
    exact (cwdFree_ensureDir (Path.isAbsolute_parent hparent h)).bind fun _ => hwrite
  · exact hwrite

theorem cwdFree_copyTo (hsrc : Path.isAbsolute src = true) (hdst : Path.isAbsolute dst = true) :
    CwdFree (copyTo src dst) := by
  unfold copyTo
  exact (CwdFree.log _ _ _).bind fun _ =>
    CwdFree.onFiles fun t cwd => by rw [FileTree.copy_root hsrc hdst]

theorem cwdFree_copyFile (hsrc : Path.isAbsolute src = true) (hdst : Path.isAbsolute dst = true) :
    CwdFree (copyFile src dst) := by
  unfold copyFile
  split
  · exact CwdFree.fail _
  · exact (cwdFree_copyTo hsrc (Path.isAbsolute_join _ hdst)).bind fun _ => CwdFree.pure _

section Search

variable [PatternSearch] [PatternSearch.FromRoot]

/-- The files an absolute pattern finds are absolute. -/
theorem returns_globFiles {pattern : String} (h : Path.isAbsolute pattern = true) :
    Returns (globFiles pattern) fun found => ∀ p ∈ found, Path.isAbsolute p = true := by
  intro r m found hrun
  simp only [globFiles, run'_bind, run'_get] at hrun
  rw [PatternSearch.FromRoot.paths_root m.files m.cwdLocation pattern h] at hrun
  cases hp : PatternSearch.paths m.files [] pattern with
  | error e =>
    rw [hp] at hrun
    cases hrun
  | ok all =>
    rw [hp] at hrun
    cases hrun
    intro p hmem
    have hmem' : p ∈ all.filter (m.files.isFile? m.cwdLocation) := (List.mem_mergeSort).1 hmem
    exact PatternSearch.FromRoot.absolute m.files pattern all h hp p (List.mem_of_mem_filter hmem')

theorem cwdFree_globFiles {pattern : String} (h : Path.isAbsolute pattern = true) :
    CwdFree (globFiles pattern) := by
  unfold globFiles
  refine CwdFree.get_bind (fun m => ?_) fun m cwd => ?_
  · split
    · exact CwdFree.fail _
    · exact CwdFree.pure _
  · -- the walk, and the check of each path it finds, read the tree from the root
    simp only [Machine.cwdLocation]
    rw [PatternSearch.FromRoot.paths_root m.files _ pattern h,
      PatternSearch.FromRoot.paths_root m.files (FileTree.locationOf m.cwd) pattern h]
    cases hp : PatternSearch.paths m.files [] pattern with
    | error e => rfl
    | ok found =>
      have habs := PatternSearch.FromRoot.absolute m.files pattern found h hp
      have hfilter (cwd : Location) :
          found.filter (m.files.isFile? cwd) = found.filter (m.files.isFile? []) :=
        List.filter_congr fun p hmem => FileTree.isFile?_root (habs p hmem)
      simp only [hfilter]

theorem cwdFree_copyMatching {pattern : String} (hpattern : Path.isAbsolute pattern = true)
    (hdst : Path.isAbsolute dst = true) (skip : String → Bool) :
    CwdFree (copyMatching pattern dst skip) := by
  unfold copyMatching
  refine (cwdFree_globFiles hpattern).bind_of_returns (returns_globFiles hpattern)
    fun sources habs => ?_
  exact CwdFree.mapM fun src hsrc => cwdFree_copyFile (habs src (List.mem_of_mem_filter hsrc)) hdst

theorem cwdFree_copyAll (hsrc : Path.isAbsolute src = true) (hdst : Path.isAbsolute dst = true) :
    CwdFree (copyAll src dst) :=
  cwdFree_copyMatching (Path.isAbsolute_join _ (GlobPattern.isAbsolute_escape hsrc)) hdst _

end Search

theorem cwdFree_removeEntry (h : Path.isAbsolute path = true) : CwdFree (removeEntry path) := by
  unfold removeEntry
  refine CwdFree.get_bind (fun m => ?_) fun m cwd => ?_
  · split
    · exact CwdFree.onFiles fun t cwd => by rw [FileTree.removeDirAll_root h]
    · exact CwdFree.onFiles fun t cwd => by rw [FileTree.removeFile_root h]
  · simp only [Machine.cwdLocation, FileTree.isDirectory?_root h]

theorem cwdFree_resetDirectory (h : Path.isAbsolute path = true) :
    CwdFree (resetDirectory path) := by
  unfold resetDirectory
  refine CwdFree.get_bind (fun m => ?_) fun m cwd => ?_
  · split
    · exact CwdFree.onFilesPartial fun t cwd => FileTree.createDirAll_root h
    · exact (CwdFree.onFiles fun t cwd => by rw [FileTree.readDir_root h]).bind fun names =>
        CwdFree.forM fun name _ => cwdFree_removeEntry (Path.isAbsolute_join name h)
  · simp only [Machine.cwdLocation, FileTree.exists?_root h]

end Files

theorem Staging.cwdFree_copyCategory [PatternSearch] [PatternSearch.FromRoot] (c : ArtifactCategory)
    {src dst : String}
    (hsrc : Path.isAbsolute src = true) (hdst : Path.isAbsolute dst = true) :
    CwdFree (Staging.copyCategory c src dst) := by
  have hpattern : Path.isAbsolute (c.pattern src) = true :=
    Path.isAbsolute_join _ (GlobPattern.isAbsolute_escape hsrc)
  unfold Staging.copyCategory
  refine CwdFree.get_bind (fun m => ?_) fun m cwd => ?_
  · split
    · exact (CwdFree.log _ _ _).bind fun _ => Files.cwdFree_copyMatching hpattern hdst _
    · exact Files.cwdFree_copyMatching hpattern hdst _
  · simp only [Machine.cwdLocation, FileTree.isDirectory?_root hsrc]

/-- **Preparing the staging directory runs the same from every working directory**, for a
configuration whose build root, script directory and certificate are absolute paths. -/
theorem Packaging.cwdFree_prepareStaging (c : BuildConfiguration)
    (hroot : Path.isAbsolute c.layout.root = true) (hscript : Path.isAbsolute c.scriptDir = true)
    (hcert : ∀ s, c.signing = some s → Path.isAbsolute s.certificate = true) :
    CwdFree (Packaging.prepareStaging c c.layout.installerStaging) := by
  have hstaging : Path.isAbsolute c.layout.installerStaging = true :=
    Path.isAbsolute_joinAll _ hroot
  have hbuild (a : Architecture) : Path.isAbsolute (c.layout.buildFiles a) = true :=
    Path.isAbsolute_joinAll _ hroot
  unfold Packaging.prepareStaging
  refine (CwdFree.log _ _ _).bind fun _ => (Files.cwdFree_resetDirectory hstaging).bind fun _ => ?_
  refine (CwdFree.forM fun arch _ => ?_).bind fun _ => ?_
  · exact (Files.cwdFree_ensureDir (Path.isAbsolute_join _ hstaging)).bind fun _ =>
      (Staging.cwdFree_copyCategory _ (hbuild arch) (Path.isAbsolute_join _ hstaging)).bind
        fun _ => CwdFree.pure _
  · refine (Staging.cwdFree_copyCategory _ (hbuild .x86) hstaging).bind fun _ => ?_
    refine (Files.cwdFree_copyAll (Path.isAbsolute_join _ hscript) hstaging).bind fun _ => ?_
    refine (CwdFree.forM fun name _ => (Files.cwdFree_copyFile (Path.isAbsolute_join _ hscript)
      hstaging).bind fun _ => CwdFree.pure _).bind fun _ => ?_
    -- the certificate, when signing, then the version file
    have hversion := Files.cwdFree_writeString (Path.isAbsolute_join versionFile hstaging)
      (renderInstallerVersion c.version.text)
    dsimp only
    split
    · rename_i s hs
      exact (Files.cwdFree_copyFile (hcert s hs) hstaging).bind fun _ => hversion
    · exact hversion

end ReleaseBuild
