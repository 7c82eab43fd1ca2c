import ReleaseBuild.Proofs.AbsolutePaths
import ReleaseBuild.Proofs.ArchitectureStaging
import ReleaseBuild.Proofs.Emptying
/-!
# What the installer staging directory holds

`Packaging.prepareStaging` fills `build_root/temp/installer` with what the installer script
expects: it empties or creates the directory, makes a directory for each architecture holding
its driver images, then copies the executables of the 32-bit build, every file of the script's
`installer` directory, the licence files, the certificate when signing, and last writes the
version file. Later copies win over earlier ones of the same name.

This module computes, from the tree the staging starts from, exactly what the staging directory
holds once the staging succeeds (`Packaging.stagedArea`), for a run from the root whose paths
never pass through `build_root/temp`: the sources are then read the same before and during the
staging.

* Reading a path reads the tree only along the path's trace (`lookup_congr`), and a path whose
  trace is made of directories leads to its place (`lookup_of_trace`).
* `Staged t₀ root a t` says that `t` is `t₀` with the staging directory `root/temp/installer`
  holding `a`, the directory `temp` above it made if it was missing, and everything outside
  `temp` unchanged. Each step of the staging, run from the root, keeps it with the area it
  leaves (`leads_*`), and `Packaging.leads_prepareStaging` chains the steps.
-/

set_option autoImplicit false

namespace ReleaseBuild

namespace FileTree

variable {t t' : FileTree} {cwd : Location}

/-! ## Reading a path along its trace -/

theorem mem_scanl_start {f : Location → String → Location} (a : Location) (l : List String) :
    a ∈ l.scanl f a := by
  cases l <;> simp [List.scanl_cons]

/-- Walking names reads the tree only at the locations it passes through. -/
theorem walk_congr {dir : Location} {cs : List String}
    (h : ∀ z ∈ cs.scanl descend dir, t.get? z = t'.get? z) :
    t.walk dir cs = t'.walk dir cs := by
  induction cs generalizing dir with
  | nil => rfl
  | cons c cs ih =>
    have hrest : ∀ z ∈ cs.scanl descend (descend dir c), t.get? z = t'.get? z :=
      fun z hz => h z (by rw [List.scanl_cons]; exact List.mem_cons_of_mem _ hz)
    unfold descend at hrest
    simp only [walk]
    split
    · rename_i hdot
      rw [if_pos hdot] at hrest
      exact ih hrest
    · rename_i hdot
      rw [if_neg hdot] at hrest
      split
      · rename_i hup
        rw [if_pos hup] at hrest
        exact ih hrest
      · rename_i hup
        rw [if_neg hup] at hrest
        -- the one location this name reads is the next on the way
        rw [hrest _ (mem_scanl_start _ _)]
        split
        · exact ih hrest
        · rfl
        · rfl

/-- Resolving a path reads the tree only along the path's trace. -/
theorem resolve_congr {path : String} (h : ∀ z ∈ trace cwd path, t.get? z = t'.get? z) :
    t.resolve cwd path = t'.resolve cwd path := by
  obtain ⟨trail, hsplit, -⟩ := chunks_eq_trimmedChunks_append path
  -- the names walked are a first part of the path's names
  obtain ⟨rest, hrest⟩ : (trimmedChunks path).dropLast <+: chunks path :=
    (List.dropLast_prefix _).trans ⟨trail, hsplit.symm⟩
  have hwalk : t.walk (startOf cwd path) (trimmedChunks path).dropLast =
      t'.walk (startOf cwd path) (trimmedChunks path).dropLast :=
    walk_congr fun z hz => h z (by rw [trace, ← hrest]; exact mem_scanl_append_left hz)
  unfold resolve
  rw [show (if path.startsWith "/" = true then [] else cwd) = startOf cwd path from rfl]
  dsimp only
  rw [hwalk]

/-- Looking a path up reads the tree only along the path's trace. -/
theorem lookup_congr {path : String} (h : ∀ z ∈ trace cwd path, t.get? z = t'.get? z) :
    t.lookup cwd path = t'.lookup cwd path := by
  unfold lookup
  rw [resolve_congr h]
  cases hr : t'.resolve cwd path with
  | error e => rfl
  | ok target =>
    -- the entry read last is at the path's place, the end of its trace
    have hloc : t.get? target.location = t'.get? target.location := by
      rw [resolve_location hr]
      exact h _ (place_mem_trace cwd path)
    simp only [bind, Except.bind, hloc]

/-- A walk from a directory that gets through passes through directories only. -/
theorem Valid.scanl_directory (ht : t.Valid) {d d' : Location} {l : List String}
    (hd : t.get? d = some .directory) (h : t.walk d l = .ok d') :
    ∀ z ∈ l.scanl descend d, t.get? z = some .directory := by
  induction l generalizing d with
  | nil =>
    intro z hz
    rw [List.scanl_nil, List.mem_singleton] at hz
    rw [hz]
    exact hd
  | cons c cs ih =>
    intro z hz
    rw [List.scanl_cons, List.mem_cons] at hz
    rcases hz with rfl | hz
    · exact hd
    unfold descend at hz
    simp only [walk] at h
    split at h
    · rename_i hdot
      rw [if_pos hdot] at hz
      exact ih hd h z hz
    · rename_i hdot
      rw [if_neg hdot] at hz
      split at h
      · rename_i hup
        rw [if_pos hup] at hz
        exact ih (ht.get?_dropLast hd) h z hz
      · rename_i hup
        rw [if_neg hup] at hz
        split at h
        · rename_i hdir
          exact ih hdir h z hz
        · cases h
        · cases h

/-- Names that pass through directories only are walked to where they lead. -/
theorem walk_of_directories {d : Location} {l : List String}
    (h : ∀ z ∈ l.scanl descend d, t.get? z = some .directory) :
    t.walk d l = .ok (l.foldl descend d) := by
  induction l generalizing d with
  | nil => rfl
  | cons c cs ih =>
    have hrest : ∀ z ∈ cs.scanl descend (descend d c), t.get? z = some .directory :=
      fun z hz => h z (by rw [List.scanl_cons]; exact List.mem_cons_of_mem _ hz)
    have hnext := hrest _ (mem_scanl_start _ _)
    rw [List.foldl_cons, ← ih hrest]
    unfold descend at hnext ⊢
    simp only [walk]
    split_ifs with hdot hup
    · rfl
    · rfl
    · rw [if_neg hdot, if_neg hup] at hnext
      rw [hnext]

/-- **Reading a path through directories.** A path whose every location on the way is a
directory names the directory at its place. -/
theorem lookup_of_trace {path : String} (hne : path ≠ "")
    (h : ∀ z ∈ trace cwd path, t.get? z = some .directory) :
    t.lookup cwd path = .ok (place cwd path, .directory) :=
  (lookup_eq_directory_iff hne).2 ⟨walk_of_directories h, h _ (place_mem_trace cwd path)⟩

/-! ## Writing a name into a directory -/

section Join

variable {base name : String} {loc : Location}

/-- The names before a valid name joined onto a path that names a directory walk to that
directory. -/
theorem walk_join (hdir : t.lookup cwd base = .ok (loc, .directory)) (hname : ValidName name) :
    ∃ l, chunks (Path.join base name) = l ++ [name] ∧
      t.walk (startOf cwd (Path.join base name)) l = .ok loc := by
  have hne : base ≠ "" := by
    rintro rfl
    simp [lookup, resolve, bind, Except.bind] at hdir
  obtain ⟨l, hjoin, hbase, hstart⟩ := join_chunks hname cwd base
  have hwalk := ((lookup_eq_directory_iff hne).1 hdir).1
  refine ⟨l, hjoin, ?_⟩
  rw [hstart]
  rcases hbase with hbase | hbase
  · rwa [hbase] at hwalk
  · -- the separator that ends the base leaves an empty name, which does not move the walk
    rw [hbase, walk_append] at hwalk
    cases hl : t.walk (startOf cwd base) l with
    | error e =>
      rw [hl] at hwalk
      cases hwalk
    | ok d =>
      rw [hl] at hwalk
      simpa [Except.bind, walk] using hwalk

/-- A valid name joined onto a path gives some text. -/
theorem isEmpty_join (hname : ValidName name) : (Path.join base name).isEmpty = false := by
  obtain ⟨l, hchunks, -, -⟩ := join_chunks hname [] base
  by_contra hpath
  simp only [Bool.not_eq_false, String.isEmpty_iff] at hpath
  rw [hpath] at hchunks
  have := congrArg List.getLast? hchunks
  simp at this
  exact hname.1 this

/-- A valid name joined onto a path that names a directory resolves to that name in it. -/
theorem resolve_join (hdir : t.lookup cwd base = .ok (loc, .directory)) (hname : ValidName name) :
    t.resolve cwd (Path.join base name) = .ok ⟨loc, some name, false⟩ := by
  obtain ⟨l, hchunks, hwalk⟩ := walk_join hdir hname
  have hne : (Path.join base name).isEmpty = false := isEmpty_join hname
  obtain ⟨hempty, hdot, hdots, -⟩ := hname
  have htriv : (name == "" || name == ".") = false := by simp [hempty, hdot]
  have hup : (name == "..") = false := by simp [hdots]
  unfold resolve
  simp only [hne, Bool.false_eq_true, if_false, trimmedChunks_of_getLast hchunks hempty,
    List.getLast?_concat, List.dropLast_concat]
  rw [show (if (Path.join base name).startsWith "/" = true then [] else cwd) =
    startOf cwd (Path.join base name) from rfl, hwalk]
  simp only [bind, Except.bind, htriv, hup, Bool.false_eq_true, if_false,
    endsWith_eq_false_of_chunks hchunks hempty]

/-- Making a directory of a name inside a directory. -/
theorem makeDir_join (hdir : t.lookup cwd base = .ok (loc, .directory)) (hname : ValidName name) :
    t.makeDir cwd (Path.join base name) = match t.get? (loc ++ [name]) with
      | some _ => .error .alreadyExists
      | none => .ok (t.put (loc ++ [name]) .directory) := by
  unfold makeDir
  rw [resolve_join hdir hname]
  cases hget : t.get? (loc ++ [name]) <;>
    simp only [bind, Except.bind, Target.location, Option.toList_some, hget]

/-- Opening a name inside a directory with truncation: a directory there refuses, a file keeps
its flag, and a new file takes the given one. -/
theorem openTruncate_join (hdir : t.lookup cwd base = .ok (loc, .directory))
    (hname : ValidName name) (x : Bool) :
    t.openTruncate cwd (Path.join base name) x = match t.get? (loc ++ [name]) with
      | some .directory => .error .isADirectory
      | some (.file _ y) => .ok (t.put (loc ++ [name]) (.file "" y), loc ++ [name])
      | none => .ok (t.put (loc ++ [name]) (.file "" x), loc ++ [name]) := by
  unfold openTruncate
  rw [resolve_join hdir hname]
  rcases hget : t.get? (loc ++ [name]) with _ | _ | ⟨_, _⟩ <;>
    simp only [bind, Except.bind, Target.location, Option.toList_some, hget, Bool.false_eq_true,
      if_false]

end Join

/-- Writing the text of a file just stored keeps the file's flag. -/
theorem get?_setContent_put {loc z : Location} (hloc : loc ≠ []) (c : String) (x : Bool)
    (content : String) :
    ((t.put loc (.file c x)).setContent loc content).get? z =
      if z = loc then some (.file content x) else t.get? z := by
  unfold setContent
  rw [get?_put_self _ hloc]
  by_cases hz : z = loc
  · rw [if_pos hz, hz, get?_put_self _ hloc]
  · rw [if_neg hz, get?_put_of_ne _ hz, get?_put_of_ne _ hz]

/-- A copy that succeeds copied a regular file. -/
theorem copy_source {src dst : String} (h : t.copy cwd src dst = .ok t') :
    ∃ loc c x, t.lookup cwd src = .ok (loc, .file c x) := by
  unfold copy at h
  rcases hl : t.lookup cwd src with _ | ⟨loc, _ | ⟨c, x⟩⟩
  · rw [hl] at h
    cases h
  · rw [hl] at h
    cases h
  · exact ⟨loc, c, x, rfl⟩

end FileTree

/-! ## The staging area -/

/-- What a staging directory holds: an entry for each name directly in it, one for each name in
each directory directly in it, and nothing deeper. -/
@[ext]
structure StagingArea where
  top : String → Option Node
  sub : String → String → Option Node

namespace StagingArea

/-- The entry at a location relative to the staging directory. -/
def get (a : StagingArea) : Location → Option Node
  | [] => some .directory
  | [n] => a.top n
  | [d, n] => a.sub d n
  | _ :: _ :: _ :: _ => none

/-- The staging directory with nothing in it. -/
def empty : StagingArea := ⟨fun _ => none, fun _ _ => none⟩

/-- Entries stored in the directory `dir` of the staging directory, the staging directory itself
for `[]`, over what it holds there. -/
def overAt (a : StagingArea) : List String → (String → Option Node) → StagingArea
  | [], src => { a with top := fun n => (src n).or (a.top n) }
  | [d], src =>
    { a with sub := fun d' n => if d' = d then (src n).or (a.sub d' n) else a.sub d' n }
  | _, _ => a

/-- One entry, of the given name. -/
def named (n : String) (x : Option Node) : String → Option Node :=
  fun k => if k = n then x else none

/-- The executable flag of a file, and `false` for anything else. -/
def flagOf : Option Node → Bool
  | some (.file _ x) => x
  | _ => false

/-- Storing nothing changes nothing. -/
theorem overAt_nothing (a : StagingArea) : a.overAt [] (fun _ => none) = a := by
  ext n <;> rfl

theorem get_empty {w : Location} (hw : w ≠ []) : empty.get w = none := by
  match w, hw with
  | [_], _ => rfl
  | [_, _], _ => rfl
  | _ :: _ :: _ :: _, _ => rfl

variable (a : StagingArea) {dir : List String} (src : String → Option Node)

theorem get_overAt_self (hdir : dir.length ≤ 1) (n : String) :
    (a.overAt dir src).get (dir ++ [n]) = (src n).or (a.get (dir ++ [n])) := by
  match dir, hdir with
  | [], _ => rfl
  | [d], _ => simp [overAt, get]

theorem get_overAt_of_ne (hdir : dir.length ≤ 1) {w : Location} (hw : ∀ n, w ≠ dir ++ [n]) :
    (a.overAt dir src).get w = a.get w := by
  match dir, hdir, w with
  | [], _, [] => rfl
  | [], _, [n] => exact absurd rfl (hw n)
  | [], _, [_, _] => rfl
  | [], _, _ :: _ :: _ :: _ => rfl
  | [_], _, [] => rfl
  | [_], _, [_] => rfl
  | [d], _, [d', n] =>
    have hd : d' ≠ d := fun h => hw n (by rw [h]; rfl)
    simp [overAt, get, hd]
  | [_], _, _ :: _ :: _ :: _ => rfl

end StagingArea

open FileTree

/-- The regular file a path names, if it names one. -/
def FileTree.fileAt (t : FileTree) (cwd : Location) (path : String) : Option Node :=
  match t.lookup cwd path with
  | .ok (_, .file c x) => some (.file c x)
  | _ => none

/-- The regular file of a name directly in the directory a path names, when `takes` takes the
name. -/
def FileTree.fileIn (t : FileTree) (cwd : Location) (dir : String) (takes : String → Bool)
    (n : String) : Option Node :=
  match t.lookup cwd dir with
  | .ok (d, .directory) => if takes n && t.isFileAt (d ++ [n]) then t.get? (d ++ [n]) else none
  | _ => none

/-- Reading the path from `cwd` keeps out of the directory `root/temp` and everything below
it. -/
def KeepsOut (root cwd : Location) (path : String) : Prop :=
  ∀ z ∈ trace cwd path, ¬ root ++ ["temp"] <+: z

instance (root cwd : Location) (path : String) : Decidable (KeepsOut root cwd path) :=
  inferInstanceAs (Decidable (∀ z ∈ trace cwd path, ¬ root ++ ["temp"] <+: z))

/-- The tree `t` that staging into the build root at `root` has reached from the tree `t₀`: it
is real, its staging directory `root/temp/installer` holds `a`, the directory `root/temp` holding
it is a directory that was a directory or nothing in `t₀`, and outside that directory it is
`t₀`. -/
structure Staged (t₀ : FileTree) (root : Location) (a : StagingArea) (t : FileTree) : Prop where
  valid : t.Valid
  temp : t.get? (root ++ ["temp"]) = some .directory
  passable : t₀.Passable (root ++ ["temp"])
  outside : ∀ z, ¬ root ++ ["temp"] <+: z → t.get? z = t₀.get? z
  inside : ∀ w, t.get? (root ++ ["temp", "installer"] ++ w) = a.get w

namespace Staged

variable {t₀ t t' : FileTree} {root : Location} {a : StagingArea}

/-- A path that keeps out of `root/temp` reads the same as before the staging. -/
theorem lookup_eq (hs : Staged t₀ root a t) {cwd : Location} {path : String}
    (h : KeepsOut root cwd path) : t.lookup cwd path = t₀.lookup cwd path :=
  lookup_congr fun z hz => hs.outside z (h z hz)

/-- An entry directly in a directory outside `root/temp` is a file as before the staging, and a
file holds what it held: the one such entry inside is `root/temp` itself, a directory both
times. -/
theorem isFileAt_child (hs : Staged t₀ root a t) {d : Location} (hd : ¬ root ++ ["temp"] <+: d)
    (n : String) : t.isFileAt (d ++ [n]) = t₀.isFileAt (d ++ [n]) ∧
      (t.isFileAt (d ++ [n]) = true → t.get? (d ++ [n]) = t₀.get? (d ++ [n])) := by
  by_cases hin : root ++ ["temp"] <+: d ++ [n]
  · have heq : root ++ ["temp"] = d ++ [n] := (List.prefix_concat_iff.1 hin).resolve_right hd
    have hfile : t.isFileAt (d ++ [n]) = false := by
      rw [← heq]
      simp [isFileAt, hs.temp]
    have hfile₀ : t₀.isFileAt (d ++ [n]) = false := by
      rw [← heq]
      rcases hs.passable with h | h <;> simp [isFileAt, h]
    rw [hfile, hfile₀]
    exact ⟨rfl, fun h => absurd h (by simp)⟩
  · have hget := hs.outside _ hin
    exact ⟨by simp only [isFileAt, hget], fun _ => hget⟩

/-- **Storing an entry.** A tree that is the staged tree with one entry stored directly in the
staging directory is staged with that entry over the area. -/
theorem stored (hs : Staged t₀ root a t) (ht' : t'.Valid) {n : String} {node : Node}
    (h : ∀ z, t'.get? z =
      if z = root ++ ["temp", "installer"] ++ [n] then some node else t.get? z) :
    Staged t₀ root (a.overAt [] (StagingArea.named n (some node))) t' := by
  -- the stored location is strictly below `root/temp`
  have hbelow : ∀ z, ¬ root ++ ["temp"] <+: z → z ≠ root ++ ["temp", "installer"] ++ [n] :=
    fun z hz heq => hz (heq ▸ ⟨["installer", n], by simp⟩)
  refine ⟨ht', ?_, hs.passable, fun z hz => ?_, fun w => ?_⟩
  · rw [h, if_neg (by simp), hs.temp]
  · rw [h, if_neg (hbelow z hz), hs.outside z hz]
  · by_cases hw : w = [n]
    · subst hw
      rw [h, if_pos rfl]
      show some node = (StagingArea.named n (some node) n).or (a.top n)
      simp [StagingArea.named]
    · rw [h, if_neg (by simpa using hw), hs.inside]
      by_cases hk : ∃ k, w = [k]
      · obtain ⟨k, rfl⟩ := hk
        rw [show [k] = ([] : List String) ++ [k] from rfl,
          StagingArea.get_overAt_self a _ (by simp)]
        have hkn : k ≠ n := fun h => hw (by rw [h])
        simp only [StagingArea.named, if_neg hkn, Option.none_or]
      · exact (StagingArea.get_overAt_of_ne a _ (by simp)
          fun k hwk => hk ⟨k, by simpa using hwk⟩).symm

/-- **Copying into the staging area.** A tree that is the staged tree with the names `N` copied
from the directory `d` into the directory `dir` of the staging directory is staged with those
files over the area. -/
theorem copiedInto (hs : Staged t₀ root a t) (ht' : t'.Valid) {dir : List String}
    (hdir : dir.length ≤ 1) {d : Location} {N : List String}
    (hcopy : CopiedInto t t' d (root ++ ["temp", "installer"] ++ dir) N)
    (hfile : ∀ n ∈ N, t.isFileAt (d ++ [n]) = true) {src : String → Option Node}
    (hsrc : ∀ n, src n = if n ∈ N then t.get? (d ++ [n]) else none) :
    Staged t₀ root (a.overAt dir src) t' := by
  -- every location written is strictly below `root/temp`
  have hbelow : ∀ z, ¬ root ++ ["temp"] <+: z →
      ∀ n ∈ N, z ≠ root ++ ["temp", "installer"] ++ dir ++ [n] :=
    fun z hz n _ heq => hz (heq ▸ ⟨"installer" :: dir ++ [n], by simp⟩)
  refine ⟨ht', ?_, hs.passable, fun z hz => ?_, fun w => ?_⟩
  · rw [hcopy.unchanged _ fun n _ heq => by simpa using congrArg List.length heq]
    exact hs.temp
  · rw [hcopy.unchanged z (hbelow z hz), hs.outside z hz]
  · by_cases hw : ∃ n ∈ N, w = dir ++ [n]
    · obtain ⟨n, hn, rfl⟩ := hw
      obtain ⟨c, x, hcx⟩ := isFileAt_iff.1 (hfile n hn)
      rw [← List.append_assoc, hcopy.copied n hn, StagingArea.get_overAt_self a _ hdir, hsrc,
        if_pos hn, hcx]
      rfl
    · have hne : ∀ n ∈ N, root ++ ["temp", "installer"] ++ w ≠
          root ++ ["temp", "installer"] ++ dir ++ [n] := fun n hn heq =>
        hw ⟨n, hn, by simpa using heq⟩
      rw [hcopy.unchanged _ hne, hs.inside]
      by_cases hk : ∃ k, w = dir ++ [k]
      · obtain ⟨k, rfl⟩ := hk
        have hk : k ∉ N := fun hk => hw ⟨k, hk, rfl⟩
        rw [StagingArea.get_overAt_self a _ hdir, hsrc, if_neg hk, Option.none_or]
      · exact (StagingArea.get_overAt_of_ne a _ hdir fun k hwk => hk ⟨k, hwk⟩).symm

end Staged

/-- The path of the staging directory leads to it when the build root's path leads to the build
root and both `temp` and the staging directory are directories. -/
theorem FileTree.lookup_stagingPath {t : FileTree} {R : String} {root : Location}
    (hroot : t.lookup [] R = .ok (root, .directory))
    (htemp : t.get? (root ++ ["temp"]) = some .directory)
    (hst : t.get? (root ++ ["temp", "installer"]) = some .directory) :
    t.lookup [] (Path.joinAll R ["temp", "installer"]) =
      .ok (root ++ ["temp", "installer"], .directory) := by
  have htempPath := lookup_join hroot (show ValidName "temp" by decide)
  rw [htemp] at htempPath
  have hstPath := lookup_join htempPath (show ValidName "installer" by decide)
  rw [List.append_assoc, show ["temp"] ++ ["installer"] = ["temp", "installer"] from rfl,
    hst] at hstPath
  exact hstPath

/-- The staging directory's path reads `root/temp/installer`. -/
theorem place_stagingPath {R : String} {root : Location} (hR : place [] R = root) :
    place [] (Path.joinAll R ["temp", "installer"]) = root ++ ["temp", "installer"] := by
  rw [place_joinAll (by decide) [] R, hR]

/-- The staging directory's path still leads to it while the staging goes on. -/
theorem Staged.lookup_staging {t₀ t : FileTree} {root : Location} {a : StagingArea} {R : String}
    (hs : Staged t₀ root a t) (hroot : t₀.lookup [] R = .ok (root, .directory))
    (hR : KeepsOut root [] R) :
    t.lookup [] (Path.joinAll R ["temp", "installer"]) =
      .ok (root ++ ["temp", "installer"], .directory) :=
  lookup_stagingPath (by rw [hs.lookup_eq hR]; exact hroot) hs.temp
    (by have h := hs.inside []; rwa [List.append_nil] at h)

/-- Every location on the way to the staging directory is a directory while the staging goes
on. -/
theorem Staged.trace_staging {t₀ t : FileTree} {root : Location} {a : StagingArea} {R : String}
    (hs : Staged t₀ root a t) (hroot : t₀.lookup [] R = .ok (root, .directory))
    (hR : KeepsOut root [] R) :
    ∀ z ∈ trace [] (Path.joinAll R ["temp", "installer"]), t.get? z = some .directory := by
  have hrootT : t.lookup [] R = .ok (root, .directory) := by rw [hs.lookup_eq hR]; exact hroot
  obtain ⟨hwalk, -⟩ := (lookup_eq_directory_iff (Files.ne_of_lookup_eq_ok hrootT)).1 hrootT
  have hway := hs.valid.scanl_directory (by simp [startOf, FileTree.get?]) hwalk
  intro z hz
  rcases mem_trace_joinAll_pair (by decide) (by decide) hz with hz | rfl | rfl
  · exact hway z hz
  · rw [← (lookup_eq_ok hroot).1]
    exact hs.temp
  · rw [← (lookup_eq_ok hroot).1]
    have h := hs.inside []
    rwa [List.append_nil] at h

/-- **Copying into the staging area by a copy law.** A copy that follows the copy law from a
plain directory text that keeps out of `root/temp`, into the staging directory or one of its
directories, and that succeeds, stages over the area what the directory held of the regular
files the law selects. -/
theorem Staged.of_copyLaw {t₀ : FileTree} {root : Location} {a : StagingArea} {m : Machine}
    (hs : Staged t₀ root a m.files) (hcwd : m.cwdLocation = []) {D E : String}
    (hplain : GlobWalk.Plain D)
    (hD : KeepsOut root [] D) {dir : List String} (hdir : dir.length ≤ 1)
    (hE : place [] E = root ++ ["temp", "installer"] ++ dir) {takes : String → Bool}
    {select : Location → List String}
    (hselect : ∀ d n, n ∈ select d ↔ takes n = true ∧ m.files.isFileAt (d ++ [n]) = true)
    {out : Except Failure (List String) × Machine} (hlaw : Files.CopyLaw m D E select out)
    {ps : List String} (hok : out.1 = .ok ps) (ht' : out.2.files.Valid) :
    Staged t₀ root (a.overAt dir (t₀.fileIn [] D takes)) out.2.files := by
  have hlook := hs.lookup_eq hD
  -- a text that names no directory copies nothing
  have hmissing : (∀ d, t₀.lookup [] D ≠ .ok (d, .directory)) →
      Staged t₀ root (a.overAt dir (t₀.fileIn [] D takes)) out.2.files := by
    intro hnot
    have hnd : m.files.isDirectory? m.cwdLocation D = false := Bool.eq_false_iff.2 fun h => by
      obtain ⟨d, hd⟩ := isDirectory?_eq_true.1 h
      rw [hcwd, hlook] at hd
      exact hnot d hd
    rw [(hlaw.missing hplain hnd).2]
    refine hs.copiedInto hs.valid hdir (CopiedInto.nil _ [] _) (by simp) fun n => ?_
    rw [if_neg List.not_mem_nil]
    unfold FileTree.fileIn
    split
    · rename_i d hd
      exact absurd hd (hnot d)
    · rfl
  rcases hl : t₀.lookup [] D with _ | ⟨d, _ | ⟨c, x⟩⟩
  · exact hmissing fun d h => by rw [hl] at h; cases h
  · obtain ⟨hplace, -⟩ := lookup_eq_ok hl
    have hd : ¬ root ++ ["temp"] <+: d := hplace ▸ hD _ (place_mem_trace [] D)
    have hne : d ≠ place m.cwdLocation E := by
      rw [hcwd, hE]
      intro h
      exact hd (h ▸ ⟨"installer" :: dir, by simp⟩)
    have hout := hlaw.copies hplain d (by rw [hcwd, hlook, hl]) hne
    rw [hcwd, hE] at hout
    rcases hres : out with ⟨res, m'⟩
    rw [hres] at hout hok ht'
    dsimp only at hok ht' ⊢
    subst hok
    obtain ⟨-, hcopy⟩ := hout
    refine hs.copiedInto ht' hdir hcopy (fun n hn => ((hselect d n).1 hn).2) fun n => ?_
    obtain ⟨hfileEq, hgetEq⟩ := hs.isFileAt_child hd n
    simp only [FileTree.fileIn, hl]
    by_cases hn : n ∈ select d
    · obtain ⟨htakes, hfile⟩ := (hselect d n).1 hn
      rw [if_pos hn, hgetEq hfile, if_pos (by rw [htakes, ← hfileEq, hfile]; rfl)]
    · rw [if_neg hn, if_neg]
      intro h
      simp only [Bool.and_eq_true] at h
      exact hn ((hselect d n).2 ⟨h.1, hfileEq ▸ h.2⟩)
  · exact hmissing fun d h => by rw [hl] at h; cases h

/-- A run that keeps a tree real keeps a machine at the root there. -/
theorem KeepsReal.atRoot {α : Type} {r : Runner} {x : ReleaseM α} (hx : KeepsReal r x)
    {m m' : Machine} {res : Except Failure α} (hcwd : m.cwdLocation = []) (ht : m.files.Valid)
    (hrun : x.run' r m = (res, m')) : m'.cwdLocation = [] ∧ m'.files.Valid := by
  obtain ⟨hc, hv, -⟩ := hx m ht (by rw [hcwd]; rfl)
  rw [hrun] at hc hv
  exact ⟨by rw [Machine.cwdLocation, hc]; exact hcwd, hv⟩

/-! ## Each step of the staging -/

/-- Every run of `x` that succeeds from a machine satisfying `P` ends in a machine satisfying
`Q`, whatever the tools do. -/
def Leads {α : Type} (P : Machine → Prop) (x : ReleaseM α) (Q : Machine → Prop) : Prop :=
  ∀ r m a m', P m → x.run' r m = (.ok a, m') → Q m'

namespace Leads

variable {α β : Type} {P Q S : Machine → Prop}

theorem bind {x : ReleaseM α} {f : α → ReleaseM β} (hx : Leads P x Q)
    (hf : ∀ a, Leads Q (f a) S) : Leads P (x >>= f) S := by
  intro r m b m'' hP hrun
  rw [ReleaseM.run'_bind] at hrun
  rcases hx' : x.run' r m with ⟨_ | a, m₁⟩ <;> rw [hx'] at hrun
  · cases hrun
  · exact hf a r m₁ b m'' (hx r m a m₁ hP hx') hrun

theorem pure (a : α) : Leads P (Pure.pure a : ReleaseM α) P := by
  intro r m a' m' hP hrun
  cases hrun
  exact hP

/-- A progress message keeps what does not look at the console. -/
theorem log (hP : ∀ m e, P m → P (m.emit e)) (level : Level) (reporter : Reporter)
    (message : String) : Leads P (ReleaseM.log level reporter message) P := by
  intro r m _ m' hm hrun
  rw [ReleaseM.run'_log] at hrun
  cases hrun
  exact hP _ _ hm

/-- A step that fails whenever it runs leads anywhere. -/
theorem of_fails {x : ReleaseM α} (h : ∀ r m, ∃ e, (x.run' r m).1 = .error e) :
    Leads P x Q := by
  intro r m a m' _ hrun
  obtain ⟨e, he⟩ := h r m
  rw [hrun] at he
  cases he

end Leads

/-- A machine at the root whose tree is staged. -/
def StagedAt (t₀ : FileTree) (root : Location) (a : StagingArea) (m : Machine) : Prop :=
  m.cwdLocation = [] ∧ Staged t₀ root a m.files

theorem StagedAt.congr {t₀ : FileTree} {root : Location} {a b : StagingArea} {m : Machine}
    (h : StagedAt t₀ root a m) (hab : a = b) : StagedAt t₀ root b m :=
  hab ▸ h

theorem Leads.post {α : Type} {P Q Q' : Machine → Prop} {x : ReleaseM α} (h : Leads P x Q)
    (hQ : ∀ m, Q m → Q' m) : Leads P x Q' :=
  fun r m a m' hP hrun => hQ m' (h r m a m' hP hrun)

section Steps

variable {t₀ : FileTree} {root : Location} {R : String} {a : StagingArea}

/-- A directory with nothing below it holds the empty area. -/
theorem StagingArea.get_empty_of_below {t : FileTree} {st : Location}
    (hst : t.get? st = some .directory) (hbelow : ∀ w, w ≠ [] → t.get? (st ++ w) = none)
    (w : Location) : t.get? (st ++ w) = StagingArea.empty.get w := by
  by_cases hw : w = []
  · subst hw
    rw [List.append_nil]
    exact hst
  · rw [hbelow w hw, StagingArea.get_empty hw]

theorem temp_prefix_staging (root : Location) :
    root ++ ["temp"] <+: root ++ ["temp", "installer"] := ⟨["installer"], by simp⟩

theorem temp_ne_staging (root : Location) : root ++ ["temp"] ≠ root ++ ["temp", "installer"] := by
  simp

/-- **An emptied staging directory.** Removing everything below a staging directory of a real
tree stages the empty area. -/
theorem Staged.emptied (ht₀ : t₀.Valid)
    (hdir : t₀.get? (root ++ ["temp", "installer"]) = some .directory) :
    Staged t₀ root StagingArea.empty (t₀.removeNames (root ++ ["temp", "installer"])
      (t₀.childNames (root ++ ["temp", "installer"]))) := by
  have hget := ht₀.get?_removeChildren (root ++ ["temp", "installer"])
  have htemp : t₀.get? (root ++ ["temp"]) = some .directory :=
    ht₀.get?_above hdir (temp_prefix_staging root) (temp_ne_staging root)
  refine ⟨ht₀.removeNames _ _, ?_, Or.inr htemp, fun z hz => ?_, ?_⟩
  · rw [hget, if_neg fun h => by simpa using h.1.length_le]
    exact htemp
  · rw [hget, if_neg fun h => hz ((temp_prefix_staging root).trans h.1)]
  · refine StagingArea.get_empty_of_below (by rw [hget, if_neg (by simp)]; exact hdir)
      fun w hw => ?_
    rw [hget, if_pos ⟨⟨w, rfl⟩, by simpa using hw⟩]

/-- **A made staging directory.** Making the staging directory's path, which named nothing, in a
real tree whose build root's path leads to a directory stages the empty area: only `temp` and
the staging directory can be new. -/
theorem Staged.made (ht₀ : t₀.Valid) (hroot : t₀.lookup [] R = .ok (root, .directory))
    {e : IoError} (hl : t₀.lookup [] (Path.joinAll R ["temp", "installer"]) = .error e)
    {t' : FileTree} (hmk : t₀.makeDirAll [] (Path.joinAll R ["temp", "installer"]) = .ok t') :
    Staged t₀ root StagingArea.empty t' := by
  have hplace := place_stagingPath (lookup_eq_ok hroot).1.symm
  have hroot₀ : t₀.get? [] = some .directory := rfl
  have hvalid := (ht₀.makeDirAllFuel (by simp) hroot₀ hmk).1
  have hst : t'.get? (root ++ ["temp", "installer"]) = some .directory := by
    rw [← hplace]
    exact makeDirAllFuel_place hroot₀ (Nat.lt_succ_self _) hmk
  have htemp : t'.get? (root ++ ["temp"]) = some .directory :=
    hvalid.get?_above hst (temp_prefix_staging root) (temp_ne_staging root)
  have hwithin := within_makeDirAll
    (R := ⟨{x | x ∈ trace [] (Path.joinAll R ["temp", "installer"])}, ∅, ∅⟩)
    (by simp) (fun x hx => Or.inl hx) hmk
  -- every location on the way to the build root is a directory, which stays
  have hway : ∀ z ∈ trace [] R, t₀.get? z = some .directory := by
    obtain ⟨hwalk, -⟩ := (lookup_eq_directory_iff (Files.ne_of_lookup_eq_ok hroot)).1 hroot
    exact ht₀.scanl_directory (by simp [startOf, hroot₀]) hwalk
  have hsame : ∀ x, x ≠ root ++ ["temp"] → x ≠ root ++ ["temp", "installer"] →
      t'.get? x = t₀.get? x := by
    intro x hxA hxS
    by_cases hx : x ∈ trace [] (Path.joinAll R ["temp", "installer"])
    · rcases mem_trace_joinAll_pair (by decide) (by decide) hx with hx | hx | hx
      · rcases hwithin.allows x with heq | hfree | ⟨-, hnone, -⟩ | ⟨hfiles, -⟩
        · exact heq.symm
        · cases hfree
        · rw [hway x hx] at hnone
          cases hnone
        · cases hfiles
      · rw [← (lookup_eq_ok hroot).1] at hx
        exact absurd hx hxA
      · rw [← (lookup_eq_ok hroot).1] at hx
        exact absurd (hx.trans (by simp)) hxS
    · exact get?_makeDirAllFuel_outside (by simp) hmk hx
  -- the staging directory was no directory, so nothing stood below it
  have hst₀ : t₀.get? (root ++ ["temp", "installer"]) ≠ some .directory := by
    intro hdir
    have := lookup_stagingPath hroot
      (ht₀.get?_above hdir (temp_prefix_staging root) (temp_ne_staging root)) hdir
    rw [hl] at this
    cases this
  refine ⟨hvalid, htemp, ?_, fun z hz => ?_, ?_⟩
  · rcases hwithin.allows (root ++ ["temp"]) with heq | hfree | ⟨-, hnone, -⟩ | ⟨hfiles, -⟩
    · exact Or.inr (heq.trans htemp)
    · cases hfree
    · exact Or.inl hnone
    · cases hfiles
  · exact hsame z (fun h => hz (h ▸ List.prefix_refl _))
      fun h => hz (h ▸ temp_prefix_staging root)
  · refine StagingArea.get_empty_of_below hst fun w hw => ?_
    rw [hsame _ (by simp) (by simpa using hw)]
    exact ht₀.get?_eq_none_of_below ⟨w, rfl⟩ (by simpa using hw) hst₀

/-- **Emptying the staging directory.** From the root of a real tree in which the build root's
path leads to a directory, emptying or creating the staging directory leaves it empty, with
`temp` a directory above it, and nothing else changed. -/
theorem leads_resetDirectory (ht₀ : t₀.Valid)
    (hroot : t₀.lookup [] R = .ok (root, .directory)) :
    Leads (fun m => m.cwdLocation = [] ∧ m.files = t₀)
      (Files.resetDirectory (Path.joinAll R ["temp", "installer"]))
      (StagedAt t₀ root StagingArea.empty) := by
  rintro r m ⟨⟩ m' ⟨hcwd, rfl⟩ hrun
  have hplace := place_stagingPath (lookup_eq_ok hroot).1.symm
  -- a staging directory that is there is emptied, a missing one is made
  cases hl : m.files.lookup m.cwdLocation (Path.joinAll R ["temp", "installer"]) with
  | ok res =>
    obtain ⟨loc, n⟩ := res
    rw [Files.run'_resetDirectory_of_lookup hl] at hrun
    cases n with
    | file c x => cases hrun
    | directory =>
      obtain ⟨hloc, hdir⟩ := lookup_eq_ok hl
      rw [hcwd, hplace] at hloc
      subst hloc
      obtain rfl := Files.eq_of_run'_forM_removeEntry
        (fun n hn => validName_of_mem_childNames ht₀.named hn) hrun
      rw [hcwd, hplace]
      exact ⟨hcwd, Staged.emptied ht₀ hdir⟩
  | error e =>
    have hex : m.files.exists? m.cwdLocation (Path.joinAll R ["temp", "installer"]) = false :=
      Bool.eq_false_iff.2 fun h => by
        obtain ⟨_, _, h'⟩ := exists?_eq_true_iff.1 h
        rw [hl] at h'
        cases h'
    rw [Files.run'_resetDirectory_of_absent hex] at hrun
    cases hmk : m.files.makeDirAll m.cwdLocation (Path.joinAll R ["temp", "installer"]) with
    | error e' =>
      rw [hmk] at hrun
      cases hrun
    | ok t' =>
      rw [hmk] at hrun
      cases hrun
      rw [hcwd] at hmk hl
      exact ⟨hcwd, Staged.made ht₀ hroot hl hmk⟩

/-- Reading a valid name other than `temp` in a directory keeps out of `root/temp` when reading
the directory does. -/
theorem KeepsOut.join {cwd : Location} {base n : String} (h : KeepsOut root cwd base)
    (hn : ValidName n) (htemp : n ≠ "temp") : KeepsOut root cwd (Path.join base n) := by
  intro z hz hA
  rcases mem_trace_join hn hz with hz | rfl
  · exact h z hz hA
  · rcases List.prefix_concat_iff.1 hA with heq | hA
    · exact htemp (List.singleton_inj.1 (List.append_inj' heq rfl).2).symm
    · exact h _ (place_mem_trace cwd base) hA

/-- **Making an architecture's directory.** Ensuring a name that the staging directory does not
hold yet makes it a directory there. -/
theorem leads_ensureDir (hroot : t₀.lookup [] R = .ok (root, .directory))
    (hR : KeepsOut root [] R) {d : String} (hd : ValidName d) (hnone : a.top d = none) :
    Leads (StagedAt t₀ root a)
      (Files.ensureDir (Path.join (Path.joinAll R ["temp", "installer"]) d))
      (StagedAt t₀ root (a.overAt [] (StagingArea.named d (some .directory)))) := by
  rintro r m ⟨⟩ m' ⟨hcwd, hs⟩ hrun
  obtain ⟨hcwd', hvalid⟩ := (Files.keepsReal_ensureDir (r := r) _).atRoot hcwd hs.valid hrun
  have hSt : m.files.lookup m.cwdLocation (Path.joinAll R ["temp", "installer"]) =
      .ok (root ++ ["temp", "installer"], .directory) := by
    rw [hcwd]
    exact hs.lookup_staging hroot hR
  have hempty : m.files.get? (root ++ ["temp", "installer"] ++ [d]) = none := by
    rw [hs.inside]
    exact hnone
  have hlook := lookup_join hSt hd
  rw [hempty] at hlook
  have hex : m.files.exists? m.cwdLocation
      (Path.join (Path.joinAll R ["temp", "installer"]) d) = false := by
    simp only [exists?, stat, hlook, Except.map]
  have hmk := makeDir_join hSt hd
  rw [hempty] at hmk
  have hall :
      m.files.makeDirAll m.cwdLocation (Path.join (Path.joinAll R ["temp", "installer"]) d) =
        .ok (m.files.put (root ++ ["temp", "installer"] ++ [d]) .directory) := by
    simp only [makeDirAll, makeDirAllFuel, isEmpty_join hd, Bool.false_eq_true, if_false, hmk]
  rw [Files.run'_ensureDir, hex, hall] at hrun
  cases hrun
  refine ⟨hcwd', hs.stored hvalid fun z => ?_⟩
  by_cases hz : z = root ++ ["temp", "installer"] ++ [d]
  · rw [if_pos hz, hz, get?_put_self _ (by simp)]
  · rw [if_neg hz, get?_put_of_ne _ hz]

/-- **Copying the files of a category.** Copying them from a plain directory text that keeps
out of `root/temp` into the staging directory or one of its directories stages over the area
the regular files of the directory that the category takes. -/
theorem leads_copyCategory (c : ArtifactCategory) {D E : String} (hplain : GlobWalk.Plain D)
    (hD : KeepsOut root [] D) {dir : List String} (hdir : dir.length ≤ 1)
    (hE : place [] E = root ++ ["temp", "installer"] ++ dir) :
    Leads (StagedAt t₀ root a) (Staging.copyCategory c D E)
      (StagedAt t₀ root (a.overAt dir (t₀.fileIn [] D c.takes))) := by
  rintro r m ps m' ⟨hcwd, hs⟩ hrun
  obtain ⟨hcwd', hvalid⟩ :=
    (Staging.keepsReal_copyCategory (r := r) c D E).atRoot hcwd hs.valid hrun
  have hlaw := Staging.copyLaw_copyCategory r m hs.valid (by rw [hcwd]; rfl) c D E
  rw [hrun] at hlaw
  refine ⟨hcwd', hs.of_copyLaw hcwd hplain hD hdir hE (fun d n => ?_) hlaw rfl hvalid⟩
  rw [List.mem_filter, mem_fileNames, and_comm]

/-- **Copying every file.** Copying all regular files of a plain directory text that keeps out
of `root/temp` into the staging directory stages them over the area. -/
theorem leads_copyAll {D E : String} (hplain : GlobWalk.Plain D) (hD : KeepsOut root [] D)
    (hE : place [] E = root ++ ["temp", "installer"]) :
    Leads (StagedAt t₀ root a) (Files.copyAll D E)
      (StagedAt t₀ root (a.overAt [] (t₀.fileIn [] D fun _ => true))) := by
  rintro r m ps m' ⟨hcwd, hs⟩ hrun
  obtain ⟨hcwd', hvalid⟩ := (Files.keepsReal_copyAll (r := r) D E).atRoot hcwd hs.valid hrun
  have hlaw := Files.copyLaw_copyAll r m hs.valid (by rw [hcwd]; rfl) D E
  rw [hrun] at hlaw
  refine ⟨hcwd', hs.of_copyLaw hcwd hplain hD (by simp) (by simpa using hE) (fun d n => ?_) hlaw
    rfl hvalid⟩
  rw [mem_fileNames]
  simp

/-- **Copying one file.** Copying a file whose path keeps out of `root/temp` into the staging
directory stages it under its own name. -/
theorem leads_copyFile (hroot : t₀.lookup [] R = .ok (root, .directory)) {src : String}
    (hsrc : KeepsOut root [] src) {n : String} (hn : Path.fileName src = some n) :
    Leads (StagedAt t₀ root a) (Files.copyFile src (Path.joinAll R ["temp", "installer"]))
      (StagedAt t₀ root (a.overAt [] (StagingArea.named n (t₀.fileAt [] src)))) := by
  rintro r m p m' ⟨hcwd, hs⟩ hrun
  obtain ⟨hcwd', hvalid⟩ := (Files.keepsReal_copyFile (r := r) _ _).atRoot hcwd hs.valid hrun
  have hnv := validName_of_fileName hn
  rw [Files.run'_copyFile_of_fileName hn] at hrun
  cases hcp : m.files.copy m.cwdLocation src
      (Path.join (Path.joinAll R ["temp", "installer"]) n) with
  | error e =>
    rw [hcp] at hrun
    cases hrun
  | ok t' =>
    rw [hcp] at hrun
    cases hrun
    obtain ⟨sl, c, x, hsl⟩ := copy_source hcp
    have hsl₀ : t₀.lookup [] src = .ok (sl, .file c x) := by
      rw [← hs.lookup_eq hsrc, ← hcwd]
      exact hsl
    have hslA : ¬ root ++ ["temp"] <+: sl :=
      (lookup_eq_ok hsl₀).1 ▸ hsrc _ (place_mem_trace [] src)
    have hdst : place m.cwdLocation (Path.join (Path.joinAll R ["temp", "installer"]) n) =
        root ++ ["temp", "installer"] ++ [n] := by
      rw [hcwd, place_join hnv, place_stagingPath (lookup_eq_ok hroot).1.symm]
    have hne : sl ≠ place m.cwdLocation (Path.join (Path.joinAll R ["temp", "installer"]) n) := by
      rw [hdst]
      intro h
      exact hslA (h ▸ ⟨["installer", n], by simp⟩)
    obtain ⟨-, hget⟩ := copy_eq_ok hsl hne hcp
    have hfileAt : t₀.fileAt [] src = some (.file c x) := by
      simp only [FileTree.fileAt, hsl₀]
    rw [hfileAt]
    exact ⟨hcwd', hs.stored hvalid fun z => by rw [hget, hdst]⟩

/-- The directory above a name in the staging directory lies on the way to the staging
directory, so ensuring it does nothing. -/
theorem Staged.ensureDir_parent {m : Machine} (hs : Staged t₀ root a m.files)
    (hcwd : m.cwdLocation = []) (hroot : t₀.lookup [] R = .ok (root, .directory))
    (hR : KeepsOut root [] R) {n q : String} (hn : ValidName n)
    (hq : Path.parent (Path.join (Path.joinAll R ["temp", "installer"]) n) = some q) (r : Runner) :
    (Files.ensureDir q).run' r m = (.ok (), m) := by
  rw [Files.run'_ensureDir]
  by_cases hqe : q = ""
  · subst hqe
    simp [exists?, stat, lookup, resolve, makeDirAll, makeDirAllFuel, Except.map]
  · have hlook : m.files.lookup m.cwdLocation q = .ok (place m.cwdLocation q, .directory) :=
      lookup_of_trace hqe fun z hz => by
        rw [hcwd] at hz
        exact hs.trace_staging hroot hR z (mem_trace_of_parent_join hn hq hz)
    rw [if_pos (exists?_eq_true_iff.2 ⟨_, _, hlook⟩)]

/-- Writing a text to a name in the staging directory stores a file there, which keeps the flag
of a file that was there. -/
theorem Staged.written {t t' : FileTree} (hs : Staged t₀ root a t)
    (hroot : t₀.lookup [] R = .ok (root, .directory)) (hR : KeepsOut root [] R) {n : String}
    (hn : ValidName n) (content : String) (ht' : t'.Valid)
    (hwf : t.writeFile [] (Path.join (Path.joinAll R ["temp", "installer"]) n) content = .ok t') :
    Staged t₀ root (a.overAt [] (StagingArea.named n
      (some (.file content (StagingArea.flagOf (a.top n)))))) t' := by
  have hopen := openTruncate_join (hs.lookup_staging hroot hR) hn false
  rw [hs.inside] at hopen
  unfold writeFile at hwf
  rw [hopen] at hwf
  refine hs.stored ht' fun z => ?_
  -- a directory there refuses the write; a file or nothing takes the text
  rcases htop : a.top n with _ | _ | ⟨c, y⟩ <;>
    simp only [StagingArea.get, htop, bind, Except.bind, Except.ok.injEq, reduceCtorEq] at hwf
  all_goals
    subst hwf
    rw [get?_setContent_put (by simp)]
    rfl

/-- **Writing a file.** Writing a text to a name in the staging directory stores it there; a
file there keeps its flag. -/
theorem leads_writeString (hroot : t₀.lookup [] R = .ok (root, .directory))
    (hR : KeepsOut root [] R) {n : String} (hn : ValidName n) (content : String) :
    Leads (StagedAt t₀ root a)
      (Files.writeString (Path.join (Path.joinAll R ["temp", "installer"]) n) content)
      (StagedAt t₀ root (a.overAt [] (StagingArea.named n
        (some (.file content (StagingArea.flagOf (a.top n))))))) := by
  rintro r m u m' ⟨hcwd, hs⟩ hrun
  obtain ⟨hcwd', hvalid⟩ := (Files.keepsReal_writeString (r := r) _ _).atRoot hcwd hs.valid hrun
  unfold Files.writeString at hrun
  rcases hq : Path.parent (Path.join (Path.joinAll R ["temp", "installer"]) n) with _ | q <;>
    simp only [hq] at hrun
  all_goals try rw [ReleaseM.run'_bind_of_ok (hs.ensureDir_parent hcwd hroot hR hn hq r)] at hrun
  all_goals
    rw [ReleaseM.run'_onFiles] at hrun
    cases hwf : m.files.writeFile m.cwdLocation
        (Path.join (Path.joinAll R ["temp", "installer"]) n) content with
    | error e =>
      rw [hwf] at hrun
      cases hrun
    | ok t' =>
      rw [hwf] at hrun
      cases hrun
      rw [hcwd] at hwf
      exact ⟨hcwd', hs.written hroot hR hn content hvalid hwf⟩

end Steps

/-! ## The staged area -/

namespace Packaging

open StagingArea

/-- The certificate that signing copies into the staging directory, under its own name. -/
def certificateCopy (c : BuildConfiguration) (t : FileTree) (cwd : Location) (n : String) :
    Option Node :=
  match c.signing with
  | some s => if Path.fileName s.certificate = some n then t.fileAt cwd s.certificate else none
  | none => none

/-- **What the copies of the staging put in the staging directory**, read from the tree `t` seen
from `cwd`: a directory for each architecture holding the driver images of its build files, the
executables of the 32-bit build files, every regular file of the script's `installer`
directory, the licence files of the script directory and, when signing, the certificate under
its own name. A later source wins over an earlier one of the same name. -/
def copiedArea (c : BuildConfiguration) (t : FileTree) (cwd : Location) : StagingArea where
  top n :=
    (certificateCopy c t cwd n).or <|
      (if n ∈ licenseFiles then t.fileAt cwd (Path.join c.scriptDir n) else none).or <|
      (t.fileIn cwd (Path.join c.scriptDir sourceDir) (fun _ => true) n).or <|
      (t.fileIn cwd (c.layout.buildFiles .x86) ArtifactCategory.executable.takes n).or <|
      if n ∈ Architecture.all.map Architecture.tag then some .directory else none
  sub d n :=
    match Architecture.ofTag? d with
    | some arch => t.fileIn cwd (c.layout.buildFiles arch) ArtifactCategory.driverImage.takes n
    | none => none

/-- **What the staging directory holds** once the staging succeeds: what the copies put there,
and the version file written over it, which keeps the flag of a file of that name copied
before. -/
def stagedArea (c : BuildConfiguration) (t : FileTree) (cwd : Location) : StagingArea :=
  (copiedArea c t cwd).overAt [] (named versionFile
    (some (.file (renderInstallerVersion c.version.text)
      (flagOf ((copiedArea c t cwd).top versionFile)))))

theorem ofTag?_eq_none {d : String} (h86 : d ≠ "x86") (h64 : d ≠ "x64") :
    Architecture.ofTag? d = none := by
  unfold Architecture.ofTag?
  split <;> simp_all

/-- **The order of the copies.** Storing, one after the other, the directory and driver images
of each architecture, the executables, the script's installer files, the licence files and the
certificate builds the area the copies put in the staging directory. -/
theorem overAt_copies_eq_copiedArea (c : BuildConfiguration) (t : FileTree) (cwd : Location) :
    ((((((((empty.overAt [] (named "x86" (some .directory))).overAt ["x86"]
      (t.fileIn cwd (c.layout.buildFiles .x86) ArtifactCategory.driverImage.takes)).overAt []
      (named "x64" (some .directory))).overAt ["x64"]
      (t.fileIn cwd (c.layout.buildFiles .x64) ArtifactCategory.driverImage.takes)).overAt []
      (t.fileIn cwd (c.layout.buildFiles .x86) ArtifactCategory.executable.takes)).overAt []
      (t.fileIn cwd (Path.join c.scriptDir sourceDir) fun _ => true)).overAt []
      (named "License.txt" (t.fileAt cwd (Path.join c.scriptDir "License.txt")))).overAt []
      (named "Readme.html" (t.fileAt cwd (Path.join c.scriptDir "Readme.html")))).overAt []
      (certificateCopy c t cwd) = copiedArea c t cwd := by
  refine StagingArea.ext (funext fun n => ?_) (funext fun d => funext fun n => ?_)
  · show (certificateCopy c t cwd n).or _ = (certificateCopy c t cwd n).or _
    congr 1
    simp only [overAt, named, empty, licenseFiles, Architecture.all, List.map, Architecture.tag,
      List.mem_cons, List.mem_nil_iff, or_false]
    by_cases h1 : n = "License.txt"
    · subst h1
      simp
    by_cases h2 : n = "Readme.html"
    · subst h2
      simp
    simp only [h1, h2, if_false, Option.none_or, or_self]
    congr 2
    by_cases h86 : n = "x86"
    · subst h86
      simp
    by_cases h64 : n = "x64"
    · subst h64
      simp
    simp [h86, h64]
  · simp only [overAt, copiedArea, empty]
    by_cases h86 : d = "x86"
    · subst h86
      simp [Architecture.ofTag?]
    by_cases h64 : d = "x64"
    · subst h64
      simp [Architecture.ofTag?]
    simp [h86, h64, ofTag?_eq_none h86 h64]

/-- An absolute path is a plain directory text. -/
theorem plain_of_isAbsolute {P : String} (h : Path.isAbsolute P = true) : GlobWalk.Plain P :=
  GlobWalk.plain_of_absolute (by
    unfold GlobWalk.rootLength
    rw [show P.startsWith "/" = true from h]
    decide)

/-- **The staging, from the root.** From the root of a real tree in which the build root's path
leads to a directory, and in which the build root, the script directory and the certificate are
absolute paths read without passing through `root/temp`, a staging that succeeds leaves the
staging directory holding exactly the staged area, read from the tree it started from, and
everything outside `root/temp` as it was. -/
theorem leads_prepareStaging (c : BuildConfiguration) {t₀ : FileTree} {root : Location}
    (ht₀ : t₀.Valid) (hroot : t₀.lookup [] c.layout.root = .ok (root, .directory))
    (hRabs : Path.isAbsolute c.layout.root = true) (hSabs : Path.isAbsolute c.scriptDir = true)
    (hR : KeepsOut root [] c.layout.root) (hS : KeepsOut root [] c.scriptDir)
    (hcert : ∀ s, c.signing = some s → KeepsOut root [] s.certificate) :
    Leads (fun m => m.cwdLocation = [] ∧ m.files = t₀)
      (prepareStaging c c.layout.installerStaging)
      (StagedAt t₀ root (stagedArea c t₀ [])) := by
  have hSt := place_stagingPath (lookup_eq_ok hroot).1.symm
  have hSt' : place [] c.layout.installerStaging = root ++ ["temp", "installer"] ++ [] := by
    rw [List.append_nil]
    exact hSt
  have hSne : c.scriptDir ≠ "" := by
    rintro h
    rw [h] at hSabs
    cases hSabs
  -- the directories of the architectures, and the build files they are filled from
  have hdirOf (arch : Architecture) : place [] (c.layout.installerStagingArch arch) =
      root ++ ["temp", "installer"] ++ [arch.tag] := by
    rw [BuildLayout.installerStagingArch, place_join (by cases arch <;> decide),
      BuildLayout.installerStaging, hSt]
  have hbuild (arch : Architecture) : KeepsOut root [] (c.layout.buildFiles arch) :=
    (hR.join (by decide) (by decide)).join (by cases arch <;> decide) (by cases arch <;> decide)
  have hplain (arch : Architecture) : GlobWalk.Plain (c.layout.buildFiles arch) :=
    plain_of_isAbsolute (Path.isAbsolute_joinAll _ hRabs)
  have harch (arch : Architecture) (a : StagingArea) (hnone : a.top arch.tag = none) :=
    (leads_ensureDir hroot hR (by cases arch <;> decide) hnone).bind fun _ =>
      (leads_copyCategory .driverImage (hplain arch) (hbuild arch) (by simp)
        (hdirOf arch)).bind fun _ => Leads.pure ()
  -- the licence files of the script directory
  have hlicence (n : String) (hn : ValidName n) (htemp : n ≠ "temp") (a : StagingArea) :=
    (leads_copyFile (a := a) hroot (hS.join hn htemp)
      (FileTree.fileName_join hSne hn)).bind fun _ => Leads.pure ()
  unfold prepareStaging
  simp only [Architecture.all, licenseFiles, List.forM_eq_forM, List.forM_cons, List.forM_nil]
  refine (Leads.log (fun _ _ h => ⟨h.1, h.2⟩) _ _ _).bind fun _ =>
    (leads_resetDirectory ht₀ hroot).bind fun _ =>
    ((harch .x86 _ rfl).bind fun _ => (harch .x64 _ rfl).bind fun _ => Leads.pure ()).bind fun _ =>
    (leads_copyCategory .executable (hplain .x86) (hbuild .x86) (by simp) hSt').bind fun _ =>
    (leads_copyAll (plain_of_isAbsolute (Path.isAbsolute_join _ hSabs))
      (hS.join (by decide) (by decide)) hSt).bind fun _ =>
    ((hlicence "License.txt" (by decide) (by decide) _).bind fun _ =>
      (hlicence "Readme.html" (by decide) (by decide) _).bind fun _ => Leads.pure ()).bind
      fun _ => ?_
  split
  · rename_i s hs
    rcases hk : Path.fileName s.certificate with _ | k
    · -- a certificate path without a file name fails to copy
      refine Leads.of_fails fun r m => ⟨.filesystem "copy" s.certificate Files.noFileName, ?_⟩
      simp [ReleaseM.run'_bind, Files.copyFile, hk]
    · have hcopy : certificateCopy c t₀ [] = named k (t₀.fileAt [] s.certificate) := by
        funext n
        by_cases hn : n = k
        · simp [certificateCopy, hs, hk, named, hn]
        · simp [certificateCopy, hs, hk, named, hn, Ne.symm hn]
      refine (leads_copyFile hroot (hcert s hs) hk).bind fun _ =>
        (leads_writeString hroot hR (by decide) _).post fun m hm => hm.congr ?_
      rw [stagedArea, ← overAt_copies_eq_copiedArea, hcopy]
      rfl
  · rename_i hnot
    have hcopy : certificateCopy c t₀ [] = fun _ => none := by
      funext n
      unfold certificateCopy
      split
      · rename_i s hs
        exact absurd hs (hnot s)
      · rfl
    refine (leads_writeString hroot hR (by decide) _).post fun m hm => hm.congr ?_
    rw [stagedArea, ← overAt_copies_eq_copiedArea, hcopy, overAt_nothing]
    rfl

end Packaging

end ReleaseBuild
