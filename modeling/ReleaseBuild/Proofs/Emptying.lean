import ReleaseBuild.Proofs.Ancestors
import ReleaseBuild.Proofs.Confined
/-!
# Emptying a directory in place

`Files.resetDirectory` makes a path an empty directory: when the path names nothing it creates
it with every missing directory above it, and when it names a directory it lists the names in
it and removes each entry with everything below it. This module gives the law of that step on a
real tree (`FileTree.Valid`) whose working directory is a directory.

* Removing the entries listed in a directory removes exactly what is strictly below it
  (`Valid.get?_removeChildren`): every entry below it lies under one of the names listed.
* A missing path that only goes down and ends in a name is created exactly when no file stands
  on its way; then every location on its way is a directory, nothing else changes, and the new
  directory is empty (`run'_resetDirectory_of_absent_ok_iff`). A creation that fails keeps the
  directories it made before the failure, all on the path's way
  (`run'_resetDirectory_of_absent_error`); down a path that ends in a name it made none.
* An existing directory is emptied, and nothing outside it changes; along a path that only
  goes down the removals cannot fail (`run'_resetDirectory_of_directory`).
* A file fails the listing and changes nothing (`run'_resetDirectory_of_file`).
* **Along a path that only goes down, a second run changes nothing and answers as the first**
  (`resetDirectory_twice`): a failed creation leaves the path missing, and the second attempt
  finds the directories above it made and fails as the first did. A `..` breaks this: `a/b/..`
  names `a`, and creating it makes `a/b` too, which the second run removes. A missing path
  whose last name is `.` is not created at all (`resetDirectory_dot_names`).
-/

set_option autoImplicit false

namespace ReleaseBuild

namespace FileTree

variable {t : FileTree}

/-! ## Removing the entries of a directory -/

/-- Removing a location removes everything at or below it. -/
theorem get?_removeTree_inside {loc x : Location} (h : loc <+: x) (hx : x ≠ []) :
    (t.removeTree loc).get? x = none := by
  have hpre : loc.isPrefixOf x = true := List.isPrefixOf_iff_prefix.2 h
  rw [get?_eq_none_iff hx]
  intro n hmem
  simp [removeTree, hpre] at hmem

theorem get?_removeTree {loc x : Location} (hx : x ≠ []) :
    (t.removeTree loc).get? x = if loc <+: x then none else t.get? x := by
  split
  · rename_i hpre
    exact get?_removeTree_inside hpre hx
  · rename_i hout
    exact get?_removeTree_outside hout

/-- The tree with some names of a directory removed, one after the other, each with everything
below it. -/
def removeNames (t : FileTree) (loc : Location) (names : List String) : FileTree :=
  names.foldl (fun s n => s.removeTree (loc ++ [n])) t

@[simp] theorem removeNames_nil (loc : Location) : t.removeNames loc [] = t := rfl

theorem removeNames_cons (loc : Location) (n : String) (rest : List String) :
    t.removeNames loc (n :: rest) = (t.removeTree (loc ++ [n])).removeNames loc rest := rfl

theorem Valid.removeNames (ht : t.Valid) (loc : Location) (names : List String) :
    (t.removeNames loc names).Valid := by
  induction names generalizing t with
  | nil => exact ht
  | cons n rest ih => exact ih (ht.removeTree _)

/-- Removing several names of a directory one after the other removes what lies under any of
them. -/
theorem get?_removeNames (loc : Location) (names : List String) {x : Location} (hx : x ≠ []) :
    (t.removeNames loc names).get? x =
      if ∃ n ∈ names, loc ++ [n] <+: x then none else t.get? x := by
  induction names generalizing t with
  | nil => simp
  | cons n rest ih =>
    rw [removeNames_cons, ih, get?_removeTree hx]
    by_cases hn : loc ++ [n] <+: x
    · simp [hn]
    · simp [hn]

/-- **Emptying a directory.** Removing every name listed in a directory of a real tree removes
exactly what lies strictly below it: an entry below it sits under the name it has one level
down, and that name is listed. -/
theorem Valid.get?_removeChildren (ht : t.Valid) (loc x : Location) :
    (t.removeNames loc (t.childNames loc)).get? x =
      if loc <+: x ∧ x ≠ loc then none else t.get? x := by
  by_cases hx : x = []
  · subst hx
    simp
  rw [get?_removeNames loc _ hx]
  by_cases hbelow : loc <+: x ∧ x ≠ loc
  · rw [if_pos hbelow]
    split
    · rfl
    · rename_i hnot
      -- an entry strictly below the directory would sit under a listed name
      obtain ⟨⟨rest, rfl⟩, hne⟩ := hbelow
      obtain ⟨c, cs, rfl⟩ := List.exists_cons_of_ne_nil (fun h : rest = [] => hne (by simp [h]))
      cases hget : t.get? (loc ++ c :: cs) with
      | none => rfl
      | some node =>
        have hchild : t.get? (loc ++ [c]) ≠ none := by
          by_cases hcs : cs = []
          · subst hcs
            simp [hget]
          · have hpre : loc ++ [c] <+: loc ++ c :: cs := ⟨cs, by simp⟩
            rw [ht.get?_above hget hpre (by simpa using hcs)]
            simp
        exact absurd ⟨c, mem_childNames_iff.2 hchild, ⟨cs, by simp⟩⟩ hnot
  · rw [if_neg hbelow]
    split
    · rename_i hsome
      obtain ⟨n, -, hn⟩ := hsome
      refine absurd ⟨(List.prefix_append loc [n]).trans hn, fun h => ?_⟩ hbelow
      -- a name below the directory is longer than the directory
      have hlen := hn.length_le
      simp only [h, List.length_append, List.length_singleton] at hlen
      omega
    · rfl

/-- A directory with nothing directly below it lists no names. -/
theorem childNames_eq_nil {loc : Location} (h : ∀ n, t.get? (loc ++ [n]) = none) :
    t.childNames loc = [] :=
  List.eq_nil_iff_forall_not_mem.2 fun n hn => mem_childNames_iff.1 hn (h n)

/-- A path names something exactly when it looks up. -/
theorem exists?_eq_true_iff {cwd : Location} {path : String} :
    t.exists? cwd path = true ↔ ∃ loc n, t.lookup cwd path = .ok (loc, n) := by
  unfold exists? stat
  cases t.lookup cwd path with
  | error e => simp [Except.map]
  | ok r => simpa [Except.map] using ⟨r.1, r.2, rfl⟩

/-- Removing a directory with everything in it removes the place the path names. -/
theorem removeDirAll_eq_ok {cwd : Location} {path : String} {t' : FileTree}
    (h : t.removeDirAll cwd path = .ok t') : t' = t.removeTree (place cwd path) := by
  unfold removeDirAll at h
  cases hl : t.lookup cwd path with
  | error e =>
    rw [hl] at h
    cases h
  | ok r =>
    obtain ⟨loc, n⟩ := r
    rw [hl] at h
    obtain ⟨rfl, -⟩ := lookup_eq_ok hl
    cases n <;> simp [bind, Except.bind] at h
    exact h.symm

/-- Removing a file removes the place the path names. -/
theorem removeFile_eq_ok {cwd : Location} {path : String} {t' : FileTree}
    (h : t.removeFile cwd path = .ok t') : t' = t.removeTree (place cwd path) := by
  unfold removeFile at h
  cases hl : t.lookup cwd path with
  | error e =>
    rw [hl] at h
    cases h
  | ok r =>
    obtain ⟨loc, n⟩ := r
    rw [hl] at h
    obtain ⟨rfl, -⟩ := lookup_eq_ok hl
    cases n <;> simp [bind, Except.bind] at h
    exact h.symm

/-- **A failed creation leaves the path missing.** Down a path of a real tree that names
nothing, creating it with its parents fails with the path still naming nothing: the directories
made stop above it. -/
theorem exists?_of_makeDirAllFuel_error (ht : t.Valid) {cwd : Location}
    (hcwd : ∀ n ∈ cwd, ValidName n) (hdir : t.get? cwd = some .directory) {fuel : Nat}
    {path : String} (hfuel : path.length < fuel) (hdown : Downward path)
    (habs : t.exists? cwd path = false) {e : IoError} {t' : FileTree}
    (h : makeDirAllFuel cwd fuel t path = .error (e, t')) : t'.exists? cwd path = false := by
  obtain ⟨f, rfl⟩ : ∃ f, fuel = f + 1 := ⟨fuel - 1, by omega⟩
  rcases makeDirAllFuel_error_of_downward ht hcwd hdir hfuel hdown h with
    rfl | ⟨q, hq, hnf, -, -, hnd⟩
  · exact habs
  -- nothing stood at the path's place, and the attempt made no directory there
  have hnone := get?_place_of_makeDir_notFound ht (ne_empty_of_parent hq) hdown hnf
  rw [Bool.eq_false_iff]
  intro hex
  obtain ⟨loc, n, hlook⟩ := exists?_eq_true_iff.1 hex
  obtain ⟨rfl, hget⟩ := lookup_eq_ok hlook
  have hframe := get?_leftBy_makeDirAllFuel (t := t) hcwd (f + 1) path (place cwd path)
  rw [h, leftBy_error] at hframe
  rcases hframe with hsame | ⟨-, -, hmade⟩
  · rw [hsame, hnone] at hget
    cases hget
  · rw [hmade] at hget
    cases hget
    have hisdir := isDirectory?_eq_true.2 ⟨_, hlook⟩
    rw [hnd] at hisdir
    cases hisdir

end FileTree

namespace Files

open FileTree ReleaseM

variable {r : Runner} {m : Machine} {path : String}

/-! ## The run, by what the path names -/

/-- A path that names nothing is created with its parents; a failure keeps what was made before
it. -/
theorem run'_resetDirectory_of_absent (h : m.files.exists? m.cwdLocation path = false) :
    (resetDirectory path).run' r m = match m.files.makeDirAll m.cwdLocation path with
      | .ok t => (.ok (), { m with files := t })
      | .error (e, t) => (.error (.filesystem "create directory" path e), { m with files := t }) := by
  simp only [resetDirectory, run'_bind, run'_get, h, Bool.not_false, if_true, run'_onFilesPartial,
    createDirAll]
  cases m.files.makeDirAll m.cwdLocation path with
  | ok t => rfl
  | error err =>
    obtain ⟨e, t⟩ := err
    rfl

/-- A path that names an entry is listed; a file cannot be. -/
theorem run'_resetDirectory_of_lookup {loc : Location} {n : Node}
    (h : m.files.lookup m.cwdLocation path = .ok (loc, n)) :
    (resetDirectory path).run' r m = match n with
      | .directory =>
        ((m.files.childNames loc).forM fun name => removeEntry (Path.join path name)).run' r m
      | .file .. => (.error (.filesystem "read directory" path .notADirectory), m) := by
  have hex : m.files.exists? m.cwdLocation path = true := exists?_eq_true_iff.2 ⟨loc, n, h⟩
  simp only [resetDirectory, run'_bind, run'_get, hex, Bool.not_true, Bool.false_eq_true,
    if_false, run'_onFiles, readDir, h]
  cases n <;> rfl

/-! ## Removing the entries one by one -/

/-- An entry that a path names is removed with everything below it. -/
theorem run'_removeEntry_of_lookup {p : String} {loc : Location} {n : Node}
    (h : m.files.lookup m.cwdLocation p = .ok (loc, n)) :
    (removeEntry p).run' r m = (.ok (), { m with files := m.files.removeTree loc }) := by
  cases n with
  | directory =>
    have hdir : m.files.isDirectory? m.cwdLocation p = true := isDirectory?_eq_true.2 ⟨loc, h⟩
    simp only [removeEntry, run'_bind, run'_get, hdir, if_true, run'_onFiles, removeDirAll, h]
    rfl
  | file c x =>
    have hdir : m.files.isDirectory? m.cwdLocation p = false := by
      simp [isDirectory?, stat, h, Except.map, Node.isDirectory]
    simp only [removeEntry, run'_bind, run'_get, hdir, Bool.false_eq_true, if_false, run'_onFiles,
      removeFile, h]
    rfl

/-- A removal that succeeds removed the place the path names. -/
theorem eq_of_run'_removeEntry {p : String} {m' : Machine}
    (h : (removeEntry p).run' r m = (.ok (), m')) :
    m' = { m with files := m.files.removeTree (place m.cwdLocation p) } := by
  simp only [removeEntry, run'_bind, run'_get] at h
  split at h
  · rw [run'_onFiles] at h
    cases hrm : m.files.removeDirAll m.cwdLocation p with
    | error e => simp [hrm, Except.map] at h
    | ok t' =>
      simp only [hrm, Except.map, Prod.mk.injEq] at h
      rw [← h.2, removeDirAll_eq_ok hrm]
  · rw [run'_onFiles] at h
    cases hrm : m.files.removeFile m.cwdLocation p with
    | error e => simp [hrm, Except.map] at h
    | ok t' =>
      simp only [hrm, Except.map, Prod.mk.injEq] at h
      rw [← h.2, removeFile_eq_ok hrm]

/-- Removals of valid names joined onto a path that all succeed removed those names under the
place the path names, one after the other. -/
theorem eq_of_run'_forM_removeEntry {base : String} {names : List String}
    (hnames : ∀ n ∈ names, ValidName n) {m' : Machine}
    (h : (names.forM fun name => removeEntry (Path.join base name)).run' r m = (.ok (), m')) :
    m' = { m with files := m.files.removeNames (place m.cwdLocation base) names } := by
  induction names generalizing m with
  | nil =>
    cases h
    rfl
  | cons n rest ih =>
    rw [List.forM_eq_forM, List.forM_cons] at h
    cases hrun : (removeEntry (Path.join base n)).run' r m with
    | mk res m₁ =>
      cases res with
      | error e =>
        rw [run'_bind_of_error hrun] at h
        cases h
      | ok u =>
        rw [run'_bind_of_ok hrun, ← List.forM_eq_forM] at h
        have hm₁ := eq_of_run'_removeEntry hrun
        rw [place_join (hnames n (by simp))] at hm₁
        subst hm₁
        rw [ih (fun n' hn' => hnames n' (by simp [hn'])) h, removeNames_cons]
        rfl

/-- **Removals down a path cannot fail.** Along a path without `..` that names a directory of a
real tree, removing distinct names found in it succeeds one after the other: the path keeps
leading to the directory, and each name to its own entry. -/
theorem run'_forM_removeEntry {base : String} (hne : base ≠ "") (hdown : Downward base)
    {names : List String} (hnodup : names.Nodup) (hnames : ∀ n ∈ names, ValidName n)
    (ht : m.files.Valid) (hdir : m.files.get? (place m.cwdLocation base) = some .directory)
    (hexist : ∀ n ∈ names, m.files.get? (place m.cwdLocation base ++ [n]) ≠ none) :
    (names.forM fun name => removeEntry (Path.join base name)).run' r m =
      (.ok (), { m with files := m.files.removeNames (place m.cwdLocation base) names }) := by
  induction names generalizing m with
  | nil => rfl
  | cons n rest ih =>
    obtain ⟨hn, hrest⟩ := List.nodup_cons.1 hnodup
    have hbase := lookup_of_downward ht hne hdown hdir
    -- the joined name is found in the directory the path names
    obtain ⟨node, hnode⟩ := Option.ne_none_iff_exists'.1 (hexist n (by simp))
    have hlook : m.files.lookup m.cwdLocation (Path.join base n) =
        .ok (place m.cwdLocation base ++ [n], node) := by
      rw [lookup_join hbase (hnames n (by simp)), hnode]
    rw [List.forM_eq_forM, List.forM_cons, run'_bind_of_ok (run'_removeEntry_of_lookup hlook)]
    -- the other names of the directory are not below the one removed
    have hout : ∀ n' ∈ rest, ¬place m.cwdLocation base ++ [n] <+: place m.cwdLocation base ++ [n'] :=
      fun n' hn' hpre => by
        have hsame : n = n' := by simpa using (List.prefix_append_right_inj _).1 hpre
        exact hn (hsame ▸ hn')
    have hkeep : ¬place m.cwdLocation base ++ [n] <+: place m.cwdLocation base := fun hpre => by
      have hlen := hpre.length_le
      simp only [List.length_append, List.length_singleton] at hlen
      omega
    rw [← List.forM_eq_forM, ih hrest (fun n' hn' => hnames n' (by simp [hn'])) (ht.removeTree _)
      ((get?_removeTree_outside hkeep).trans hdir)
      (fun n' hn' hnone => hexist n' (by simp [hn'])
        ((get?_removeTree_outside (hout n' hn')).symm.trans hnone))]
    rfl

/-! ## The law of emptying a directory -/

/-- Only a path with some text looks up. -/
theorem ne_of_lookup_eq_ok {t : FileTree} {cwd : Location} {p : String} {loc : Location}
    {n : Node} (h : t.lookup cwd p = .ok (loc, n)) : p ≠ "" := by
  rintro rfl
  simp [lookup, resolve, bind, Except.bind] at h

/-- **An existing directory is emptied.** A run that succeeds leaves nothing strictly below the
directory, and the directory itself, everything outside it and the rest of the machine as they
were. -/
theorem run'_resetDirectory_of_directory (ht : m.files.Valid) {loc : Location}
    (h : m.files.lookup m.cwdLocation path = .ok (loc, .directory)) {m' : Machine}
    (hrun : (resetDirectory path).run' r m = (.ok (), m')) :
    ∃ t', m' = { m with files := t' } ∧
      ∀ x, t'.get? x = if loc <+: x ∧ x ≠ loc then none else m.files.get? x := by
  rw [run'_resetDirectory_of_lookup h] at hrun
  obtain ⟨rfl, -⟩ := lookup_eq_ok h
  exact ⟨_, eq_of_run'_forM_removeEntry (fun n hn => validName_of_mem_childNames ht.named hn) hrun,
    ht.get?_removeChildren _⟩

/-- **Emptying down a path succeeds.** Along a path without `..`, emptying an existing directory
removes every name listed in it. -/
theorem run'_resetDirectory_of_downward (ht : m.files.Valid) (hdown : Downward path)
    {loc : Location} (h : m.files.lookup m.cwdLocation path = .ok (loc, .directory)) :
    (resetDirectory path).run' r m =
      (.ok (), { m with files := m.files.removeNames loc (m.files.childNames loc) }) := by
  rw [run'_resetDirectory_of_lookup h]
  obtain ⟨rfl, hdir⟩ := lookup_eq_ok h
  exact run'_forM_removeEntry (ne_of_lookup_eq_ok h) hdown (ht.nodup_childNames _)
    (fun n hn => validName_of_mem_childNames ht.named hn) ht hdir
    (fun n hn => mem_childNames_iff.1 hn)

/-- **A file is not emptied.** Listing it fails, and nothing changes. -/
theorem run'_resetDirectory_of_file (h : m.files.isFile? m.cwdLocation path = true) :
    (resetDirectory path).run' r m =
      (.error (.filesystem "read directory" path .notADirectory), m) := by
  unfold isFile? stat at h
  cases hl : m.files.lookup m.cwdLocation path with
  | error e => simp [hl, Except.map] at h
  | ok res =>
    obtain ⟨loc, n⟩ := res
    rw [run'_resetDirectory_of_lookup hl]
    cases n with
    | directory => simp [hl, Except.map, Node.isFile] at h
    | file c x => rfl

/-- A missing path whose creation fails says so, and what changed are only directories made
where nothing was, on the path's trace. -/
theorem run'_resetDirectory_of_absent_error (habs : m.files.exists? m.cwdLocation path = false)
    {e : Failure} (hrun : ((resetDirectory path).run' r m).1 = .error e) :
    (∃ err, e = .filesystem "create directory" path err) ∧
      ∃ t', ((resetDirectory path).run' r m).2 = { m with files := t' } ∧
        ∀ x, t'.get? x = m.files.get? x ∨
          (x ∈ trace m.cwdLocation path ∧ m.files.get? x = none ∧ t'.get? x = some .directory) := by
  have hframe := get?_leftBy_makeDirAllFuel (t := m.files) (valid_locationOf m.cwd)
    (path.length + 1) path
  rw [run'_resetDirectory_of_absent habs] at hrun ⊢
  cases hmk : m.files.makeDirAll m.cwdLocation path with
  | ok t =>
    rw [hmk] at hrun
    cases hrun
  | error err =>
    obtain ⟨err, t'⟩ := err
    rw [hmk] at hrun
    cases hrun
    rw [show makeDirAllFuel (locationOf m.cwd) (path.length + 1) m.files path = .error (err, t')
      from hmk, leftBy_error] at hframe
    exact ⟨⟨err, rfl⟩, t', rfl, hframe⟩

/-- **A path to a name is created whole or not at all.** Down a path that ends in a name, a
creation that fails changes nothing: it fails at its first step. -/
theorem run'_resetDirectory_of_absent_error_of_endsInName (ht : m.files.Valid)
    (hcwd : m.files.get? m.cwdLocation = some .directory)
    (habs : m.files.exists? m.cwdLocation path = false) (hdown : Downward path)
    (hname : EndsInName path) {e : Failure} (hrun : ((resetDirectory path).run' r m).1 = .error e) :
    ((resetDirectory path).run' r m).2 = m := by
  rw [run'_resetDirectory_of_absent habs] at hrun ⊢
  cases hmk : m.files.makeDirAll m.cwdLocation path with
  | ok t =>
    rw [hmk] at hrun
    cases hrun
  | error err =>
    obtain ⟨err, t'⟩ := err
    obtain rfl := makeDirAllFuel_error_of_endsInName ht (valid_locationOf m.cwd) hcwd
      (Nat.lt_succ_self _) hdown hname hmk
    rfl

/-- **A missing path is created with its parents.** Along a path without `..`, a run that
succeeds leaves a directory at every location of the path's trace, and nothing else changed. -/
theorem run'_resetDirectory_of_absent_eq_ok (ht : m.files.Valid)
    (hcwd : m.files.get? m.cwdLocation = some .directory)
    (habs : m.files.exists? m.cwdLocation path = false) (hdown : Downward path) {m' : Machine}
    (hrun : (resetDirectory path).run' r m = (.ok (), m')) :
    ∃ t', m' = { m with files := t' } ∧
      ∀ x, t'.get? x = if x ∈ trace m.cwdLocation path then some .directory else m.files.get? x := by
  rw [run'_resetDirectory_of_absent habs] at hrun
  cases hmk : m.files.makeDirAll m.cwdLocation path with
  | error err =>
    obtain ⟨err, t'⟩ := err
    rw [hmk] at hrun
    cases hrun
  | ok t' =>
    rw [hmk] at hrun
    cases hrun
    exact ⟨t', rfl, makeDirAllFuel_get? ht (valid_locationOf m.cwd) hcwd (Nat.lt_succ_self _)
      hdown hmk⟩

/-- A missing path that only goes down and ends in a name is created exactly when no file stands
on its trace. -/
theorem run'_resetDirectory_of_absent_ok_iff (ht : m.files.Valid)
    (hcwd : m.files.get? m.cwdLocation = some .directory)
    (habs : m.files.exists? m.cwdLocation path = false) (hdown : Downward path)
    (hname : EndsInName path) :
    ((resetDirectory path).run' r m).1 = .ok () ↔
      ∀ x ∈ trace m.cwdLocation path, m.files.Passable x := by
  rw [run'_resetDirectory_of_absent habs]
  constructor
  · intro hok
    cases hmk : m.files.makeDirAll m.cwdLocation path with
    | error err =>
      obtain ⟨err, t'⟩ := err
      rw [hmk] at hok
      cases hok
    | ok t' =>
      exact fun x hx => passable_of_makeDirAllFuel ht (valid_locationOf m.cwd) hcwd
        (Nat.lt_succ_self _) hdown hmk hx
  · intro hpass
    obtain ⟨t', hmk⟩ := makeDirAllFuel_ok ht (valid_locationOf m.cwd) hcwd (Nat.lt_succ_self _)
      hdown hpass (Or.inl hname)
    rw [show m.files.makeDirAll m.cwdLocation path = .ok t' from hmk]

/-- Below a path that names nothing, along a path without `..`, there is nothing. -/
theorem get?_below_of_absent (ht : m.files.Valid) (hpath : path ≠ "")
    (habs : m.files.exists? m.cwdLocation path = false) (hdown : Downward path) {x : Location}
    (hpre : place m.cwdLocation path <+: x) (hne : x ≠ place m.cwdLocation path) :
    m.files.get? x = none := by
  refine ht.get?_eq_none_of_below hpre (Ne.symm hne) fun hdir => ?_
  have := lookup_of_downward ht hpath hdown hdir
  simp [exists?_eq_true_iff.2 ⟨_, _, this⟩] at habs

/-- An empty directory stays as it is. -/
theorem run'_resetDirectory_of_empty {loc : Location}
    (h : m.files.lookup m.cwdLocation path = .ok (loc, .directory))
    (hempty : m.files.childNames loc = []) : (resetDirectory path).run' r m = (.ok (), m) := by
  rw [run'_resetDirectory_of_lookup h, hempty]
  rfl

/-- **Emptying twice is emptying once.** Along a path without `..`, a second run changes nothing
and answers as the first: a failure changed nothing, and a success left an empty directory. -/
theorem resetDirectory_twice (ht : m.files.Valid)
    (hcwd : m.files.get? m.cwdLocation = some .directory) (hdown : Downward path) :
    (resetDirectory path).run' r ((resetDirectory path).run' r m).2 =
      (resetDirectory path).run' r m := by
  cases hl : m.files.lookup m.cwdLocation path with
  | error e =>
    -- nothing there: it is created, or the creation fails and fails again in the same way
    have habs : m.files.exists? m.cwdLocation path = false := by
      simp [exists?, stat, hl, Except.map]
    rw [run'_resetDirectory_of_absent habs]
    cases hmk : m.files.makeDirAll m.cwdLocation path with
    | error err =>
      obtain ⟨e', t'⟩ := err
      -- the directories made stop above the path, and trying again finds them made
      have habs' := exists?_of_makeDirAllFuel_error ht (valid_locationOf m.cwd) hcwd
        (Nat.lt_succ_self _) hdown habs hmk
      have hagain := makeDirAllFuel_error_again ht (valid_locationOf m.cwd) hcwd
        (Nat.lt_succ_self _) hdown hmk
      rw [run'_resetDirectory_of_absent (m := { m with files := t' }) habs',
        show ({ m with files := t' } : Machine).files.makeDirAll
          ({ m with files := t' } : Machine).cwdLocation path = .error (e', t') from hagain]
    | ok t' =>
      have hafter := @makeDirAllFuel_get? _ _ ht m.cwdLocation (valid_locationOf m.cwd) hcwd _ _
        (Nat.lt_succ_self _) hdown hmk
      by_cases hpath : path = ""
      · -- the empty path names nothing before and after
        subst hpath
        have habs' : t'.exists? m.cwdLocation "" = false := by
          simp [exists?, stat, lookup, resolve, bind, Except.bind, Except.map]
        rw [run'_resetDirectory_of_absent (m := { m with files := t' }) habs']
        rfl
      · -- the new directory is named by the path, and nothing is below it
        have ht' := (ht.makeDirAllFuel (valid_locationOf m.cwd) hcwd hmk).1
        have hdir : t'.get? (place m.cwdLocation path) = some .directory := by
          rw [hafter, if_pos (place_mem_trace _ _)]
        refine run'_resetDirectory_of_empty (m := { m with files := t' })
          (lookup_of_downward ht' hpath hdown hdir) (childNames_eq_nil fun n => ?_)
        have hbelow : place m.cwdLocation path ++ [n] ∉ trace m.cwdLocation path := fun hmem => by
          have hlen := (prefix_of_mem_trace hdown hmem).2.length_le
          simp only [List.length_append, List.length_singleton] at hlen
          omega
        show t'.get? (place m.cwdLocation path ++ [n]) = none
        rw [hafter, if_neg hbelow]
        exact get?_below_of_absent ht hpath habs hdown (List.prefix_append _ _) (by simp)
  | ok res =>
    obtain ⟨loc, n⟩ := res
    cases n with
    | file c x =>
      have hfile : m.files.isFile? m.cwdLocation path = true := by
        simp [isFile?, stat, hl, Except.map, Node.isFile]
      rw [run'_resetDirectory_of_file hfile]
      exact run'_resetDirectory_of_file hfile
    | directory =>
      -- the emptied directory is still named by the path, and lists nothing
      rw [run'_resetDirectory_of_downward ht hdown hl]
      obtain ⟨rfl, hdir⟩ := lookup_eq_ok hl
      have hemptied := ht.get?_removeChildren (place m.cwdLocation path)
      have hdir' : (m.files.removeNames (place m.cwdLocation path)
          (m.files.childNames (place m.cwdLocation path))).get? (place m.cwdLocation path) =
          some .directory := by
        rw [hemptied, if_neg (fun h => h.2 rfl)]
        exact hdir
      exact run'_resetDirectory_of_empty
        (lookup_of_downward (ht.removeNames _ _) (ne_of_lookup_eq_ok hl) hdown hdir')
        (childNames_eq_nil fun n => by
          show (m.files.removeNames (place m.cwdLocation path)
            (m.files.childNames (place m.cwdLocation path))).get? (place m.cwdLocation path ++ [n]) =
              none
          rw [hemptied, if_pos ⟨List.prefix_append _ _, by simp⟩])

/-! ## The law -/

/-- What emptying a directory in place does, by what the path names before the run. -/
structure ResetLaw (r : Runner) (m : Machine) (path : String) : Prop where
  /-- A missing path that only goes down and ends in a name is created exactly when no file
  stands on its trace. -/
  created_iff : m.files.exists? m.cwdLocation path = false → Downward path → EndsInName path →
    (((resetDirectory path).run' r m).1 = .ok () ↔
      ∀ x ∈ trace m.cwdLocation path, m.files.Passable x)
  /-- Once created, every location of its trace is a directory, nothing else has changed, and
  nothing is below it. -/
  created : m.files.exists? m.cwdLocation path = false → Downward path → path ≠ "" →
    ((resetDirectory path).run' r m).1 = .ok () →
    ∃ t', ((resetDirectory path).run' r m).2 = { m with files := t' } ∧
      (∀ x, t'.get? x = if x ∈ trace m.cwdLocation path then some .directory else m.files.get? x) ∧
      ∀ x, place m.cwdLocation path <+: x → x ≠ place m.cwdLocation path → t'.get? x = none
  /-- A creation that fails says so, and keeps only the directories it made where nothing was,
  on the path's trace. -/
  createFailed : m.files.exists? m.cwdLocation path = false → ∀ e,
    ((resetDirectory path).run' r m).1 = .error e →
    (∃ err, e = .filesystem "create directory" path err) ∧
      ∃ t', ((resetDirectory path).run' r m).2 = { m with files := t' } ∧
        ∀ x, t'.get? x = m.files.get? x ∨
          (x ∈ trace m.cwdLocation path ∧ m.files.get? x = none ∧ t'.get? x = some .directory)
  /-- Down a path that ends in a name, a creation that fails changes nothing. -/
  createFailedUnchanged : m.files.exists? m.cwdLocation path = false → Downward path →
    EndsInName path → ∀ e, ((resetDirectory path).run' r m).1 = .error e →
    ((resetDirectory path).run' r m).2 = m
  /-- An existing directory, once emptied, holds nothing, and everything else is as it was. -/
  emptied : ∀ loc, m.files.lookup m.cwdLocation path = .ok (loc, .directory) →
    ((resetDirectory path).run' r m).1 = .ok () →
    ∃ t', ((resetDirectory path).run' r m).2 = { m with files := t' } ∧
      ∀ x, t'.get? x = if loc <+: x ∧ x ≠ loc then none else m.files.get? x
  /-- Emptying an existing directory down a path without `..` succeeds. -/
  emptied_ok : m.files.isDirectory? m.cwdLocation path = true → Downward path →
    ((resetDirectory path).run' r m).1 = .ok ()
  /-- A file fails the listing and changes nothing. -/
  file : m.files.isFile? m.cwdLocation path = true →
    (resetDirectory path).run' r m = (.error (.filesystem "read directory" path .notADirectory), m)
  /-- Along a path without `..`, a second run changes nothing and answers as the first. -/
  twice : Downward path →
    (resetDirectory path).run' r ((resetDirectory path).run' r m).2 =
      (resetDirectory path).run' r m

/-- **Emptying a directory in place**, on a real tree whose working directory is a directory. -/
theorem resetDirectory_law (r : Runner) (m : Machine) (path : String) (ht : m.files.Valid)
    (hcwd : m.files.get? m.cwdLocation = some .directory) : ResetLaw r m path where
  created_iff habs hdown hname := run'_resetDirectory_of_absent_ok_iff ht hcwd habs hdown hname
  created habs hdown hpath hok := by
    obtain ⟨t', hm', hget⟩ := run'_resetDirectory_of_absent_eq_ok ht hcwd habs hdown
      (Prod.ext hok rfl)
    refine ⟨t', hm', hget, fun x hpre hne => ?_⟩
    -- below the new directory nothing is on its trace, and nothing was there before
    have hout : x ∉ trace m.cwdLocation path := fun hmem => hne
      (List.IsPrefix.eq_of_length (prefix_of_mem_trace hdown hmem).2
        (Nat.le_antisymm (prefix_of_mem_trace hdown hmem).2.length_le hpre.length_le))
    rw [hget, if_neg hout]
    exact get?_below_of_absent ht hpath habs hdown hpre hne
  createFailed habs _ herr := run'_resetDirectory_of_absent_error habs herr
  createFailedUnchanged habs hdown hname _ herr :=
    run'_resetDirectory_of_absent_error_of_endsInName ht hcwd habs hdown hname herr
  emptied _ h hok := run'_resetDirectory_of_directory ht h (Prod.ext hok rfl)
  emptied_ok hdir hdown := by
    obtain ⟨loc, h⟩ := isDirectory?_eq_true.1 hdir
    rw [run'_resetDirectory_of_downward ht hdown h]
  file hfile := run'_resetDirectory_of_file hfile
  twice hdown := resetDirectory_twice ht hcwd hdown

/-- The law on a tree holding `out` with one file in it. -/
theorem resetDirectory_law_sample :
    ({ files := ⟨[(["out"], .directory), (["out", "old.txt"], .file "x" false)]⟩ } : Machine).files.Valid ∧
      ({ files := ⟨[(["out"], .directory), (["out", "old.txt"], .file "x" false)]⟩ } : Machine).files.get?
        ({ files := ⟨[(["out"], .directory), (["out", "old.txt"], .file "x" false)]⟩ } : Machine).cwdLocation =
        some .directory ∧
      ResetLaw Runner.scripted
        { files := ⟨[(["out"], .directory), (["out", "old.txt"], .file "x" false)]⟩ } "out" :=
  ⟨by decide, by decide, resetDirectory_law _ _ _ (by decide) (by decide)⟩

/-- From an empty tree, paths whose last name is `.` or `..` fall outside the law: `a/.` names
nothing and is not created; `a/b/.` is not created either, but the failed attempt leaves `a`
made; `a/b/..` names nothing, and resetting it makes `a/b` and so `a`, which the path names and
which now holds `b`; a second run removes `b`. -/
theorem resetDirectory_dot_names :
    ({} : Machine).files.exists? ({} : Machine).cwdLocation "a/." = false ∧
      ((resetDirectory "a/.").run' Runner.scripted {}).1.toBool = false ∧
      ((resetDirectory "a/b/.").run' Runner.scripted {}).1.toBool = false ∧
      ((resetDirectory "a/b/.").run' Runner.scripted {}).2.files.get? ["a"] = some .directory ∧
      ({} : Machine).files.exists? ({} : Machine).cwdLocation "a/b/.." = false ∧
      ((resetDirectory "a/b/..").run' Runner.scripted {}).1 = .ok () ∧
      ((resetDirectory "a/b/..").run' Runner.scripted {}).2.files.childNames ["a"] = ["b"] ∧
      ((resetDirectory "a/b/..").run' Runner.scripted
        ((resetDirectory "a/b/..").run' Runner.scripted {}).2).2.files.childNames ["a"] = [] := by
  decide +kernel

end Files

end ReleaseBuild
