import ReleaseBuild.Proofs.ParentPlace
/-!
# Creating a directory with its parents

`FileTree.makeDirAll` creates a directory and, first, every missing directory above it, by
following `Path.parent` up one name at a time. This module says when it succeeds and what it
leaves, for paths that only go down (`Downward`: no `..` name).

* Reading such a path passes only through locations between where it starts and the location it
  names (`prefix_of_mem_trace`), so in a real tree it is walked through whenever it names a
  directory (`walk_of_downward`), and otherwise the walk stops at a missing entry unless a file
  is in the way (`walk_of_passable`).
* Creating directories keeps a tree real (`Valid.makeDir`, `Valid.makeDirAllFuel`), changes
  nothing off the path's trace (`get?_makeDirAllFuel_outside`) and leaves a directory at the
  place the path names (`makeDirAllFuel_place`).
* **It succeeds** (`makeDirAllFuel_ok`) when no file stands on the path's trace and the path ends
  in a name or already names a directory. The last condition is needed: the parent of `a/.` is
  the empty path, so creating `a/.` where `a` is missing never makes `a`.
-/

set_option autoImplicit false

namespace ReleaseBuild

namespace FileTree

/-! ## Paths that only go down -/

/-- A path without a `..` name: reading it only ever goes down or stays. -/
def Downward (path : String) : Prop := ".." ∉ chunks path

instance (path : String) : Decidable (Downward path) :=
  inferInstanceAs (Decidable (".." ∉ chunks path))

/-- No file stands at a location: it holds a directory or nothing. -/
def Passable (t : FileTree) (loc : Location) : Prop :=
  t.get? loc = none ∨ t.get? loc = some .directory

instance (t : FileTree) (loc : Location) : Decidable (t.Passable loc) :=
  inferInstanceAs (Decidable (t.get? loc = none ∨ t.get? loc = some .directory))

/-- A name other than `..` stays or goes one level down. -/
theorem prefix_descend {c : String} (hc : c ≠ "..") (acc : Location) : acc <+: descend acc c := by
  unfold descend
  split
  · exact List.prefix_refl acc
  · rw [if_neg (by simpa using hc)]
    exact List.prefix_append acc [c]

/-- **Reading down.** Reading names without `..` passes only through locations between where it
starts and where it ends. -/
theorem prefix_of_mem_scanl {l : List String} (hl : ∀ c ∈ l, c ≠ "..") {a x : Location}
    (h : x ∈ l.scanl descend a) : a <+: x ∧ x <+: l.foldl descend a := by
  induction l generalizing a x with
  | nil =>
    simp only [List.scanl_nil, List.mem_singleton] at h
    subst h
    exact ⟨List.prefix_refl x, List.prefix_refl x⟩
  | cons c cs ih =>
    have hc : a <+: descend a c := prefix_descend (hl c (by simp)) a
    have ih' := @ih (fun c' hc' => hl c' (by simp [hc'])) (descend a c)
    -- the reading of the rest starts one name down
    have hend : descend a c <+: cs.foldl descend (descend a c) :=
      (ih' (x := descend a c) (by cases cs <;> simp)).2
    rw [List.scanl_cons, List.mem_cons] at h
    rw [List.foldl_cons]
    rcases h with rfl | h
    · exact ⟨List.prefix_refl x, hc.trans hend⟩
    · obtain ⟨h₁, h₂⟩ := ih' h
      exact ⟨hc.trans h₁, h₂⟩

/-- Reading a path without `..` passes only through locations between where it starts and the
location it names. -/
theorem prefix_of_mem_trace {cwd : Location} {path : String} (hdown : Downward path)
    {x : Location} (h : x ∈ trace cwd path) : startOf cwd path <+: x ∧ x <+: place cwd path :=
  prefix_of_mem_scanl (fun _ hc heq => hdown (heq ▸ hc)) h

/-- A walk from a directory ends in a directory: a name is entered only when it is one, and the
directory above a directory is one. -/
theorem Valid.walk_directory {t : FileTree} (ht : t.Valid) {d d' : Location} {l : List String}
    (hd : t.get? d = some .directory) (h : t.walk d l = .ok d') : t.get? d' = some .directory := by
  induction l generalizing d with
  | nil =>
    cases h
    exact hd
  | cons c cs ih =>
    simp only [walk] at h
    split at h
    · exact ih hd h
    · split at h
      · exact ih (ht.get?_dropLast hd) h
      · split at h
        · rename_i hdir
          exact ih hdir h
        · cases h
        · cases h

/-- **Walking down to a directory.** Names without `..` that lead to a directory are walked
through: every location on the way is above it, so a directory. -/
theorem walk_of_downward {t : FileTree} (ht : t.Valid) {l : List String} (hl : ∀ c ∈ l, c ≠ "..")
    {d : Location} (hdir : t.get? (l.foldl descend d) = some .directory) :
    t.walk d l = .ok (l.foldl descend d) := by
  induction l generalizing d with
  | nil => rfl
  | cons c cs ih =>
    have hup : c ≠ ".." := hl c (by simp)
    have ih' := @ih (fun c' hc' => hl c' (by simp [hc']))
    rw [List.foldl_cons] at hdir ⊢
    by_cases htriv : (c == "" || c == ".") = true
    · have hstay : descend d c = d := by simp [descend, htriv]
      rw [hstay] at hdir ⊢
      simpa [walk, htriv] using ih' hdir
    · -- a name: the entry it enters lies on the way to the directory
      have hdown : descend d c = d ++ [c] := by simp [descend, htriv, hup]
      have hmid : t.get? (d ++ [c]) = some .directory := by
        refine ht.directory_above hdir ?_
        rw [← hdown]
        exact (prefix_of_mem_scanl (fun c' hc' => hl c' (by simp [hc']))
          (x := descend d c) (by cases cs <;> simp)).2
      simp only [walk, htriv, Bool.false_eq_true, if_false, beq_iff_eq, hup, if_false, hmid]
      rw [← hdown]
      exact ih' hdir

/-- **Walking where no file stands.** Names without `..` through locations that hold no file
are walked to their end, or the walk stops at a missing entry. -/
theorem walk_of_passable {t : FileTree} {l : List String} (hl : ∀ c ∈ l, c ≠ "..")
    {d : Location} (hpass : ∀ x ∈ l.scanl descend d, t.Passable x) :
    t.walk d l = .ok (l.foldl descend d) ∨ t.walk d l = .error .notFound := by
  induction l generalizing d with
  | nil => exact Or.inl rfl
  | cons c cs ih =>
    have hup : c ≠ ".." := hl c (by simp)
    have ih' := @ih (fun c' hc' => hl c' (by simp [hc']))
      (descend d c) (fun x hx => hpass x (by simp [List.scanl_cons, hx]))
    rw [List.foldl_cons]
    by_cases htriv : (c == "" || c == ".") = true
    · have hstay : descend d c = d := by simp [descend, htriv]
      rw [hstay] at ih' ⊢
      simpa [walk, htriv] using ih'
    · have hdown : descend d c = d ++ [c] := by simp [descend, htriv, hup]
      rw [hdown] at ih' ⊢
      simp only [walk, htriv, Bool.false_eq_true, if_false, beq_iff_eq, hup, if_false]
      -- the entry entered holds a directory or nothing
      have hhere : t.Passable (d ++ [c]) := by
        rw [← hdown]
        exact hpass _ (by cases cs <;> simp [List.scanl_cons])
      rcases hhere with hnone | hdir
      · rw [hnone]
        exact Or.inr rfl
      · rw [hdir]
        exact ih'

/-- **Looking up a directory down a path.** A path without `..` that leads to a directory of a
real tree names it. -/
theorem lookup_of_downward {t : FileTree} (ht : t.Valid) {cwd : Location} {path : String}
    (hne : path ≠ "") (hdown : Downward path) (hdir : t.get? (place cwd path) = some .directory) :
    t.lookup cwd path = .ok (place cwd path, .directory) :=
  (lookup_eq_directory_iff hne).2
    ⟨walk_of_downward ht (fun _ hc heq => hdown (heq ▸ hc)) hdir, hdir⟩

/-! ## Creating one directory -/

/-- The last of a path's trimmed names is not empty. -/
theorem getLast?_trimmedChunks_ne {path : String} : (trimmedChunks path).getLast? ≠ some "" := by
  intro h
  unfold trimmedChunks at h
  rw [List.getLast?_reverse] at h
  have hhead := List.head?_dropWhile_not (· == "") (chunks path).reverse
  rw [h] at hhead
  simp at hhead

/-- A path without `..` that ends in a name ends in a valid name, after the names it walks. -/
theorem trimmedChunks_of_endsInName {path : String} (hdown : Downward path)
    (hname : EndsInName path) :
    ∃ init n, trimmedChunks path = init ++ [n] ∧ ValidName n := by
  obtain ⟨n, hlast, hdot⟩ := hname
  obtain ⟨init, hinit⟩ := List.getLast?_eq_some_iff.1 hlast
  have hmem : n ∈ chunks path := by
    obtain ⟨trail, hsplit, -⟩ := chunks_eq_trimmedChunks_append path
    simp [hsplit, hinit]
  refine ⟨init, n, hinit, fun hempty => getLast?_trimmedChunks_ne (hempty ▸ hlast), hdot,
    fun hup => hdown (hup ▸ hmem), not_mem_of_mem_chunks hmem⟩

/-- **Creating a directory at a name.** A path that ends in a valid name is created by walking
the names before it, then storing a directory under that name where nothing is. -/
theorem makeDir_of_trimmedChunks {t : FileTree} {cwd : Location} {path : String}
    {init : List String} {n : String} (hsplit : trimmedChunks path = init ++ [n])
    (hn : ValidName n) :
    t.makeDir cwd path = (t.walk (startOf cwd path) init).bind fun d =>
      match t.get? (d ++ [n]) with
      | some _ => .error .alreadyExists
      | none => .ok (t.put (d ++ [n]) .directory) := by
  obtain ⟨hempty, hdot, hup, -⟩ := hn
  have hne : path.isEmpty = false := by
    rw [Bool.eq_false_iff]
    intro hpath
    rw [String.isEmpty_iff.1 hpath] at hsplit
    simp [trimmedChunks] at hsplit
  have htriv : (n == "" || n == ".") = false := by simp [hempty, hdot]
  have hdots : (n == "..") = false := by simp [hup]
  unfold makeDir resolve
  simp only [hne, Bool.false_eq_true, if_false, hsplit, List.getLast?_concat,
    List.dropLast_concat]
  rw [show (if path.startsWith "/" = true then [] else cwd) = startOf cwd path from rfl]
  cases t.walk (startOf cwd path) init with
  | error e => rfl
  | ok d =>
    cases hget : t.get? (d ++ [n]) <;>
      simp only [bind, Except.bind, htriv, hdots, hget, Bool.false_eq_true, if_false,
        Target.location, Option.toList_some]

/-- Creating one directory fails as missing only where resolving its path does: a path that
resolves fails only on an entry already there. -/
theorem resolve_of_makeDir_notFound {t : FileTree} {cwd : Location} {path : String}
    (h : t.makeDir cwd path = .error .notFound) : t.resolve cwd path = .error .notFound := by
  unfold makeDir at h
  cases hr : t.resolve cwd path with
  | error e =>
    rw [hr] at h
    cases h
    rfl
  | ok target =>
    rw [hr] at h
    simp only [bind, Except.bind] at h
    split at h
    · cases h
    · split at h <;> cases h

/-- A path that names an entry is not missing for creating a directory either: creating it
fails only because something is there. -/
theorem makeDir_ne_notFound {t : FileTree} {cwd : Location} {path : String} {loc : Location}
    {node : Node} (h : t.lookup cwd path = .ok (loc, node)) :
    t.makeDir cwd path ≠ .error .notFound := by
  intro hmk
  unfold lookup at h
  rw [resolve_of_makeDir_notFound hmk] at h
  cases h

/-- Where a path resolves to, it names a directory when it names anything. -/
theorem Valid.resolve_dir {t : FileTree} (ht : t.Valid) {cwd : Location} {path : String}
    {target : Target} (hstart : t.get? (startOf cwd path) = some .directory)
    (h : t.resolve cwd path = .ok target) : t.get? target.dir = some .directory := by
  unfold resolve at h
  split at h
  · cases h
  · dsimp only at h
    rw [show (if path.startsWith "/" = true then [] else cwd) = startOf cwd path from rfl] at h
    split at h
    · cases h
      rfl
    · cases hw : t.walk (startOf cwd path) (trimmedChunks path).dropLast with
      | error e =>
        rw [hw] at h
        cases h
      | ok d =>
        rw [hw] at h
        have hd := ht.walk_directory hstart hw
        simp only [bind, Except.bind] at h
        split at h
        · cases h
          exact hd
        · split at h
          · cases h
            exact ht.get?_dropLast hd
          · cases h
            exact hd

/-- A path that does not resolve fails on the walk to the directory of its last name. -/
theorem walk_of_resolve_error {t : FileTree} {cwd : Location} {path : String} {e : IoError}
    (hne : path ≠ "") (h : t.resolve cwd path = .error e) :
    t.walk (startOf cwd path) (trimmedChunks path).dropLast = .error e := by
  have hempty : path.isEmpty = false := by simpa using hne
  unfold resolve at h
  simp only [hempty, Bool.false_eq_true, if_false] at h
  rw [show (if path.startsWith "/" = true then [] else cwd) = startOf cwd path from rfl] at h
  split at h
  · cases h
  · cases hw : t.walk (startOf cwd path) (trimmedChunks path).dropLast with
    | error e' =>
      rw [hw] at h
      cases h
      rfl
    | ok d =>
      rw [hw] at h
      simp only [bind, Except.bind] at h
      split at h
      · cases h
      · split at h <;> cases h

/-- Creating a directory keeps a tree real: the new directory sits in the directory its path
walks to. -/
theorem Valid.makeDir {t t' : FileTree} (ht : t.Valid) {cwd : Location} {path : String}
    (hcwd : ∀ n ∈ cwd, ValidName n) (hstart : t.get? (startOf cwd path) = some .directory)
    (h : t.makeDir cwd path = .ok t') : t'.Valid := by
  obtain ⟨hne, hget, rfl⟩ := makeDir_eq_ok h
  unfold FileTree.makeDir at h
  cases hr : t.resolve cwd path with
  | error e =>
    rw [hr] at h
    cases h
  | ok target =>
    rw [hr] at h
    simp only [bind, Except.bind] at h
    split at h
    · cases h
    · rename_i leaf hleaf
      -- the new location is the resolved directory with the leaf below it
      have hloc : place cwd path = target.dir ++ [leaf] := by
        rw [← resolve_location hr, Target.location, hleaf, Option.toList_some]
      refine ht.put hne (valid_place hcwd path) ?_ (Or.inl rfl)
      rw [hloc, List.dropLast_concat]
      exact ht.resolve_dir hstart hr

/-! ## Creating a directory with its parents -/

/-- A path names a directory exactly when it looks up to one. -/
theorem isDirectory?_eq_true {t : FileTree} {cwd : Location} {path : String} :
    t.isDirectory? cwd path = true ↔ ∃ loc, t.lookup cwd path = .ok (loc, .directory) := by
  unfold isDirectory? stat
  cases h : t.lookup cwd path with
  | error e => simp [Except.map]
  | ok r =>
    obtain ⟨loc, n⟩ := r
    cases n <;> simp [Except.map, Node.isDirectory]

/-- A path that names a directory names the one at the place it leads to. -/
theorem get?_place_of_isDirectory? {t : FileTree} {cwd : Location} {path : String}
    (h : t.isDirectory? cwd path = true) : t.get? (place cwd path) = some .directory := by
  obtain ⟨loc, hlook⟩ := isDirectory?_eq_true.1 h
  obtain ⟨rfl, hget⟩ := lookup_eq_ok hlook
  exact hget

/-- The working directory is a directory, and so is the root: a path is read from one. -/
theorem get?_startOf {t : FileTree} {cwd : Location} (hdir : t.get? cwd = some .directory)
    (path : String) : t.get? (startOf cwd path) = some .directory := by
  unfold startOf
  split
  · rfl
  · exact hdir

/-- Creating a directory leaves every directory in place. -/
theorem get?_makeDir_of_directory {t t' : FileTree} {cwd : Location} {path : String}
    (h : t.makeDir cwd path = .ok t') {x : Location} (hx : t.get? x = some .directory) :
    t'.get? x = some .directory := by
  obtain ⟨-, hget, rfl⟩ := makeDir_eq_ok h
  have hne : x ≠ place cwd path := by
    rintro rfl
    rw [hget] at hx
    cases hx
  rw [get?_put_of_ne _ hne]
  exact hx

/-- Creating a directory with its parents keeps a tree real, and the working directory with it,
whether it succeeds or stops at a failure. -/
theorem Valid.leftBy_makeDirAllFuel {t : FileTree} (ht : t.Valid) {cwd : Location}
    (hcwd : ∀ n ∈ cwd, ValidName n) (hdir : t.get? cwd = some .directory) (fuel : Nat)
    (path : String) :
    (leftBy (makeDirAllFuel cwd fuel t path)).Valid ∧
      (leftBy (makeDirAllFuel cwd fuel t path)).get? cwd = some .directory := by
  refine leftBy_makeDirAllFuel_of_step (fun s => s.Valid ∧ s.get? cwd = some .directory)
    (fun _ hs hmk => ?_) fuel ⟨ht, hdir⟩
  -- one directory created in a real tree keeps it real
  exact ⟨hs.1.makeDir hcwd (get?_startOf hs.2 _) hmk, get?_makeDir_of_directory hmk hs.2⟩

/-- Creating a directory with its parents keeps a tree real, and the working directory with it. -/
theorem Valid.makeDirAllFuel {t t' : FileTree} (ht : t.Valid) {cwd : Location}
    (hcwd : ∀ n ∈ cwd, ValidName n) (hdir : t.get? cwd = some .directory) {fuel : Nat}
    {path : String} (h : makeDirAllFuel cwd fuel t path = .ok t') :
    t'.Valid ∧ t'.get? cwd = some .directory := by
  have hleft := ht.leftBy_makeDirAllFuel hcwd hdir fuel path
  rw [h] at hleft
  exact hleft

/-- **The path is a directory after.** Creating a directory with its parents, with fuel for
every character of the path, leaves a directory at the place the path names. -/
theorem makeDirAllFuel_place {t t' : FileTree} {cwd : Location}
    (hdir : t.get? cwd = some .directory) {fuel : Nat} {path : String} (hfuel : path.length < fuel)
    (h : makeDirAllFuel cwd fuel t path = .ok t') : t'.get? (place cwd path) = some .directory := by
  -- the directory just made, or one that the path already names
  have hmade : ∀ {s s' : FileTree}, s.makeDir cwd path = .ok s' →
      s'.get? (place cwd path) = some .directory := fun hmk => by
    obtain ⟨hne, -, rfl⟩ := makeDir_eq_ok hmk
    exact get?_put_self _ hne
  cases fuel with
  | zero => omega
  | succ fuel =>
    simp only [FileTree.makeDirAllFuel] at h
    split at h
    · rename_i hempty
      cases h
      rw [String.isEmpty_iff.1 hempty]
      exact hdir
    · split at h
      · rename_i hmk
        cases h
        exact hmade hmk
      · split at h
        · split at h
          · rename_i q _
            cases hrec : FileTree.makeDirAllFuel cwd fuel t q with
            | error e =>
              rw [hrec] at h
              cases h
            | ok t₁ =>
              rw [hrec] at h
              simp only [bind, Except.bind] at h
              split at h
              · rename_i hmk
                cases h
                exact hmade hmk
              · split at h
                · rename_i hisDir
                  cases h
                  exact get?_place_of_isDirectory? hisDir
                · cases h
          · cases h
        · split at h
          · rename_i hisDir
            cases h
            exact get?_place_of_isDirectory? hisDir
          · cases h

/-- A path's parent goes down only where the path does. -/
theorem downward_of_parent {p q : String} (h : Path.parent p = some q) (hdown : Downward p) :
    Downward q := by
  intro hmem
  obtain ⟨j, hcut, -, -, hq⟩ := Path.parent_eq_take h
  rw [show q = String.ofList (p.toList.take j) by rw [← hq, String.ofList_toList]] at hmem
  rcases mem_chunks_of_cut hcut hmem with hmem | hmem
  · exact hdown (by simpa using hmem)
  · exact absurd hmem (by decide)

/-- A path with a parent is not empty. -/
theorem ne_empty_of_parent {p q : String} (h : Path.parent p = some q) : p ≠ "" := by
  rintro rfl
  simp [Path.parent] at h

/-- A path's parent is shorter than the path. -/
theorem length_parent_lt {p q : String} (h : Path.parent p = some q) : q.length < p.length := by
  obtain ⟨j, -, hlt, -, hq⟩ := Path.parent_eq_take h
  rw [← String.length_toList, ← String.length_toList, hq, List.length_take]
  omega

/-- **What a creation may change.** Creating a directory with its parents, whether it succeeds
or stops at a failure, leaves every location as it was, except missing ones on the path's trace,
which may have become directories. -/
theorem get?_leftBy_makeDirAllFuel {t : FileTree} {cwd : Location}
    (hcwd : ∀ n ∈ cwd, ValidName n) (fuel : Nat) (path : String) (x : Location) :
    (leftBy (makeDirAllFuel cwd fuel t path)).get? x = t.get? x ∨
      (x ∈ trace cwd path ∧ t.get? x = none ∧
        (leftBy (makeDirAllFuel cwd fuel t path)).get? x = some .directory) := by
  have hwithin : Within ⟨{x | x ∈ trace cwd path}, ∅, ∅⟩ t
      (leftBy (makeDirAllFuel cwd fuel t path)) :=
    within_makeDirAllFuel hcwd fuel fun loc hloc => Or.inl hloc
  rcases hwithin.allows x with heq | hfree | ⟨hdirs, hnone, hmade⟩ | ⟨hfiles, -⟩
  · exact Or.inl heq.symm
  · cases hfree
  · exact Or.inr ⟨hdirs, hnone, hmade⟩
  · cases hfiles

/-- Creating a directory with its parents changes nothing off the path's trace. -/
theorem get?_makeDirAllFuel_outside {t t' : FileTree} {cwd : Location}
    (hcwd : ∀ n ∈ cwd, ValidName n) {fuel : Nat} {path : String}
    (h : makeDirAllFuel cwd fuel t path = .ok t') {x : Location} (hx : x ∉ trace cwd path) :
    t'.get? x = t.get? x := by
  have hframe := get?_leftBy_makeDirAllFuel (t := t) hcwd fuel path x
  rw [h] at hframe
  rcases hframe with heq | ⟨hmem, -⟩
  · exact heq
  · exact absurd hmem hx

/-- Where a path that only goes down already names a directory, creating it with its parents
changes nothing: creating the directory itself fails because it is there. -/
theorem makeDirAllFuel_of_directory {t : FileTree} (ht : t.Valid) {cwd : Location} {fuel : Nat}
    {path : String} (hne : path ≠ "") (hdown : Downward path)
    (hdir : t.get? (place cwd path) = some .directory) :
    makeDirAllFuel cwd (fuel + 1) t path = .ok t := by
  have hlook := lookup_of_downward ht hne hdown hdir
  have hisdir : t.isDirectory? cwd path = true := isDirectory?_eq_true.2 ⟨_, hlook⟩
  have hempty : path.isEmpty = false := by simpa using hne
  simp only [FileTree.makeDirAllFuel, hempty, Bool.false_eq_true, if_false]
  cases hmk : t.makeDir cwd path with
  | ok t₁ =>
    obtain ⟨-, hnone, -⟩ := makeDir_eq_ok hmk
    rw [hnone] at hdir
    cases hdir
  | error e =>
    have hnf : (e == .notFound) = false := by
      simpa using fun he : e = .notFound => makeDir_ne_notFound hlook (he ▸ hmk)
    simp [hnf, hisdir]

/-- The names a path walks before its last one pass only through locations of its trace. -/
theorem mem_trace_of_trimmedChunks {cwd : Location} {path : String} {init : List String}
    {n : String} (hsplit : trimmedChunks path = init ++ [n]) {x : Location}
    (hx : x ∈ init.scanl descend (startOf cwd path)) : x ∈ trace cwd path := by
  obtain ⟨trail, hchunks, -⟩ := chunks_eq_trimmedChunks_append path
  unfold trace
  rw [hchunks, hsplit, List.append_assoc]
  exact mem_scanl_append_left hx

/-- **Creating a directory with its parents succeeds** for a path that only goes down, where no
file stands on its way, and that ends in a name or already names a directory. When the
directory above is missing, it is made first, one name up, and then the directory itself. -/
theorem makeDirAllFuel_ok {t : FileTree} (ht : t.Valid) {cwd : Location}
    (hcwd : ∀ n ∈ cwd, ValidName n) (hdir : t.get? cwd = some .directory) {fuel : Nat}
    {path : String} (hfuel : path.length < fuel) (hdown : Downward path)
    (hpass : ∀ x ∈ trace cwd path, t.Passable x)
    (hend : EndsInName path ∨ t.get? (place cwd path) = some .directory) :
    ∃ t', makeDirAllFuel cwd fuel t path = .ok t' := by
  induction fuel generalizing path with
  | zero => omega
  | succ fuel ih =>
    by_cases hempty : path = ""
    · subst hempty
      exact ⟨t, rfl⟩
    by_cases hP : t.get? (place cwd path) = some .directory
    · exact ⟨t, makeDirAllFuel_of_directory ht hempty hdown hP⟩
    -- nothing is at the path's place yet, and the path ends in a name
    obtain ⟨init, n, hsplit, hn⟩ := trimmedChunks_of_endsInName hdown (hend.resolve_right hP)
    have hplace : place cwd path = init.foldl descend (startOf cwd path) ++ [n] := by
      rw [place_eq_foldl_trimmedChunks, hsplit, List.foldl_concat, descend_of_validName hn]
    have hnone : t.get? (place cwd path) = none :=
      (hpass _ (place_mem_trace cwd path)).resolve_right hP
    have hinit : ∀ c ∈ init, c ≠ ".." := fun c hc hup => by
      obtain ⟨trail, hchunks, -⟩ := chunks_eq_trimmedChunks_append path
      exact hdown (by rw [hchunks, hsplit]; simp [← hup, hc])
    have hmk := @makeDir_of_trimmedChunks t cwd path init n hsplit hn
    have hisEmpty : path.isEmpty = false := by simpa using hempty
    simp only [FileTree.makeDirAllFuel, hisEmpty, Bool.false_eq_true, if_false]
    rcases walk_of_passable hinit (fun x hx => hpass x (mem_trace_of_trimmedChunks hsplit hx))
      with hwalk | hwalk
    · -- the directory above is there: the directory is made at once
      rw [hmk, hwalk]
      simp [Except.bind, ← hplace, hnone]
    · -- the directory above is missing: the parent is made first
      rw [hmk, hwalk]
      simp only [Except.bind, beq_self_eq_true, if_true]
      cases hq : Path.parent path with
      | none =>
        rcases parent_eq_none hq with hnil | hshort
        · exact absurd hnil hempty
        · exact absurd ((place_of_trimmed_short cwd hshort) ▸ get?_startOf hdir path) hP
      | some q =>
        rcases place_parent cwd hq with hstart | ⟨⟨c, hc, hcne, hcdot, hdesc⟩, hqend⟩
        · exact absurd (hstart ▸ get?_startOf hdir path) hP
        have hc' : ValidName c :=
          ⟨hcne, hcdot, fun hup => hdown (hup ▸ hc), not_mem_of_mem_chunks hc⟩
        -- the parent names the directory above the path
        have hqplace : place cwd q = init.foldl descend (startOf cwd path) := by
          rw [descend_of_validName hc', hplace] at hdesc
          exact (List.append_inj' hdesc rfl).1.symm
        have hqlen : q.length < fuel := by
          have := length_parent_lt hq
          omega
        have hqdown := downward_of_parent hq hdown
        obtain ⟨t₁, hrec⟩ := ih hqlen hqdown (fun x hx => hpass x (mem_trace_of_parent hq hx))
          (hqend.imp_right fun h : place cwd q = startOf cwd q => h ▸ get?_startOf hdir q)
        obtain ⟨ht₁, -⟩ := ht.makeDirAllFuel hcwd hdir hrec
        have hD := makeDirAllFuel_place hdir hqlen hrec
        rw [hqplace] at hD
        have hwalk₁ := walk_of_downward ht₁ hinit hD
        -- the path's own place lies below everything the parent passes through
        have hnone₁ : t₁.get? (place cwd path) = none := by
          rw [get?_makeDirAllFuel_outside hcwd hrec, hnone]
          intro hmem
          have hlen := (prefix_of_mem_trace hqdown hmem).2.length_le
          rw [hqplace, hplace, List.length_append, List.length_singleton] at hlen
          omega
        refine ⟨t₁.put (place cwd path) .directory, ?_⟩
        simp only [hrec, bind, Except.bind]
        rw [makeDir_of_trimmedChunks hsplit hn, hwalk₁]
        simp only [Except.bind, ← hplace, hnone₁]

/-- **What creating a directory with its parents leaves.** Along a path that only goes down,
a successful run leaves a directory at every location of the path's trace and nothing else
changed; so no file stood on the trace before. -/
theorem makeDirAllFuel_get? {t t' : FileTree} (ht : t.Valid) {cwd : Location}
    (hcwd : ∀ n ∈ cwd, ValidName n) (hdir : t.get? cwd = some .directory) {fuel : Nat}
    {path : String} (hfuel : path.length < fuel) (hdown : Downward path)
    (h : makeDirAllFuel cwd fuel t path = .ok t') (x : Location) :
    t'.get? x = if x ∈ trace cwd path then some .directory else t.get? x := by
  split
  · rename_i hx
    exact (ht.makeDirAllFuel hcwd hdir h).1.directory_above
      (makeDirAllFuel_place hdir hfuel h) (prefix_of_mem_trace hdown hx).2
  · rename_i hx
    exact get?_makeDirAllFuel_outside hcwd h hx

/-- A path that only goes down is created with its parents only where no file stands on its
trace: creating directories never replaces a file. -/
theorem passable_of_makeDirAllFuel {t t' : FileTree} (ht : t.Valid) {cwd : Location}
    (hcwd : ∀ n ∈ cwd, ValidName n) (hdir : t.get? cwd = some .directory) {fuel : Nat}
    {path : String} (hfuel : path.length < fuel) (hdown : Downward path)
    (h : makeDirAllFuel cwd fuel t path = .ok t') {x : Location} (hx : x ∈ trace cwd path) :
    t.Passable x := by
  have hafter := makeDirAllFuel_get? ht hcwd hdir hfuel hdown h x
  rw [if_pos hx] at hafter
  have hframe := get?_leftBy_makeDirAllFuel (t := t) hcwd fuel path x
  rw [h] at hframe
  rcases hframe with heq | ⟨-, hnone, -⟩
  · exact Or.inr (heq.symm.trans hafter)
  · exact Or.inl hnone

/-! ## Creating that stops at a failure -/

/-- **What a failed creation did.** A creation with its parents that fails either failed on its
first step and changed nothing; or, the path being missing below, failed while making the
directories above; or made them and then failed on the path itself, which the tree it left does
not name as a directory. -/
theorem makeDirAllFuel_eq_error {t t' : FileTree} {cwd : Location} {fuel : Nat} {path : String}
    {e : IoError} (h : makeDirAllFuel cwd (fuel + 1) t path = .error (e, t')) :
    t' = t ∨
      ∃ q, Path.parent path = some q ∧ t.makeDir cwd path = .error .notFound ∧
        (makeDirAllFuel cwd fuel t q = .error (e, t') ∨
          makeDirAllFuel cwd fuel t q = .ok t' ∧ t'.makeDir cwd path = .error e ∧
            t'.isDirectory? cwd path = false) := by
  rw [FileTree.makeDirAllFuel] at h
  split at h
  · cases h
  · split at h
    · cases h
    · rename_i e₀ hmk
      split at h
      · rename_i hnf
        have he₀ : e₀ = .notFound := by simpa using hnf
        split at h
        · rename_i q hq
          refine Or.inr ⟨q, hq, he₀ ▸ hmk, ?_⟩
          cases hrec : makeDirAllFuel cwd fuel t q with
          | error err =>
            rw [hrec] at h
            exact Or.inl h
          | ok t₁ =>
            rw [hrec] at h
            dsimp only [bind, Except.bind] at h
            split at h
            · cases h
            · rename_i e' hmk'
              split at h
              · cases h
              · rename_i hnd
                cases h
                exact Or.inr ⟨rfl, hmk', by simpa using hnd⟩
        · cases h
          exact Or.inl rfl
      · split at h
        · cases h
        · cases h
          exact Or.inl rfl

/-- A creation whose first step fails for a reason other than a missing directory, where the path
names no directory, fails at once and changes nothing. -/
theorem makeDirAllFuel_of_makeDir_error {t : FileTree} {cwd : Location} {fuel : Nat}
    {path : String} (hne : path ≠ "") {e : IoError} (hmk : t.makeDir cwd path = .error e)
    (he : e ≠ .notFound) (hnd : t.isDirectory? cwd path = false) :
    makeDirAllFuel cwd (fuel + 1) t path = .error (e, t) := by
  have hempty : path.isEmpty = false := by simpa using hne
  have hbeq : (e == .notFound) = false := by simpa using he
  simp only [FileTree.makeDirAllFuel, hempty, Bool.false_eq_true, if_false, hmk, hbeq, hnd]

/-- Empty names read after a location stay at it. -/
theorem eq_of_mem_scanl_empty {l : List String} (hl : ∀ c ∈ l, c = "") {z y : Location}
    (hy : y ∈ l.scanl descend z) : y = z := by
  induction l generalizing z with
  | nil => simpa using hy
  | cons c cs ih =>
    obtain rfl := hl c List.mem_cons_self
    simp only [List.scanl_cons, descend_empty, List.mem_cons] at hy
    rcases hy with rfl | hy
    · rfl
    · exact ih (fun c' hc' => hl c' (List.mem_cons_of_mem _ hc')) hy

/-- Reading a path that ends in a name passes, after the names before its last, only through the
place it names. -/
theorem mem_trace_of_endsInName {cwd : Location} {path : String} {init : List String}
    {n : String} (hsplit : trimmedChunks path = init ++ [n]) (hn : ValidName n) {x : Location}
    (hx : x ∈ trace cwd path) :
    x ∈ init.scanl descend (startOf cwd path) ∨ x = place cwd path := by
  obtain ⟨trail, hchunks, htrail⟩ := chunks_eq_trimmedChunks_append path
  have hplace : place cwd path = init.foldl descend (startOf cwd path) ++ [n] := by
    rw [place_eq_foldl_trimmedChunks, hsplit, List.foldl_concat, descend_of_validName hn]
  unfold trace at hx
  rw [hchunks, hsplit, List.append_assoc, List.scanl_append, List.singleton_append,
    List.scanl_cons, List.tail_cons, descend_of_validName hn, ← hplace] at hx
  rcases List.mem_append.1 hx with hx | hx
  · exact Or.inl hx
  · exact Or.inr (eq_of_mem_scanl_empty htrail hx)

/-- **A file on the way.** Names without `..` read from a directory of a real tree, through a
location that holds a file, are walked up to it and stop there: a file is not a directory. -/
theorem walk_of_file {t : FileTree} (ht : t.Valid) {l : List String} (hl : ∀ c ∈ l, c ≠ "..")
    {d x : Location} (hd : t.get? d = some .directory) (hx : x ∈ l.scanl descend d)
    {c : String} {b : Bool} (hfile : t.get? x = some (.file c b)) :
    t.walk d l = .error .notADirectory := by
  induction l generalizing d with
  | nil =>
    simp only [List.scanl_nil, List.mem_singleton] at hx
    subst hx
    rw [hd] at hfile
    cases hfile
  | cons a as ih =>
    have hup : a ≠ ".." := hl a List.mem_cons_self
    have ih' := @ih (fun a' ha' => hl a' (List.mem_cons_of_mem _ ha'))
    simp only [List.scanl_cons, List.mem_cons] at hx
    rcases hx with rfl | hx
    · rw [hd] at hfile
      cases hfile
    by_cases htriv : (a == "" || a == ".") = true
    · have hstay : descend d a = d := by simp [descend, htriv]
      rw [hstay] at hx
      simp only [walk, htriv, if_true]
      exact ih' hd hx
    · have hdown : descend d a = d ++ [a] := by simp [descend, htriv, hup]
      rw [hdown] at hx
      simp only [walk, htriv, Bool.false_eq_true, if_false, beq_iff_eq, hup]
      -- the entry entered is the file, or a directory above it
      by_cases hat : d ++ [a] = x
      · rw [hat, hfile]
      · have hpre := (prefix_of_mem_scanl (fun a' ha' => hl a' (List.mem_cons_of_mem _ ha')) hx).1
        have hmid : t.get? (d ++ [a]) = some .directory := ht.get?_above hfile hpre hat
        rw [hmid]
        exact ih' hmid hx

/-- **A missing entry on the way.** Names without `..` whose walk stops at a missing entry pass
through a location that holds nothing. -/
theorem exists_none_of_walk {t : FileTree} {l : List String} (hl : ∀ c ∈ l, c ≠ "..")
    {d : Location} (h : t.walk d l = .error .notFound) :
    ∃ y ∈ l.scanl descend d, t.get? y = none := by
  induction l generalizing d with
  | nil => cases h
  | cons a as ih =>
    have hup : a ≠ ".." := hl a List.mem_cons_self
    have ih' := @ih (fun a' ha' => hl a' (List.mem_cons_of_mem _ ha'))
    -- a location passed after the first name is passed by the whole walk
    have hlift : ∀ {y}, y ∈ as.scanl descend (descend d a) → y ∈ (a :: as).scanl descend d :=
      fun hy => by simp [List.scanl_cons, hy]
    by_cases htriv : (a == "" || a == ".") = true
    · have hstay : descend d a = d := by simp [descend, htriv]
      simp only [walk, htriv, if_true] at h
      obtain ⟨y, hy, hnone⟩ := ih' h
      exact ⟨y, hlift (by rw [hstay]; exact hy), hnone⟩
    · have hdown : descend d a = d ++ [a] := by simp [descend, htriv, hup]
      simp only [walk, htriv, Bool.false_eq_true, if_false, beq_iff_eq, hup] at h
      -- the entry entered is the missing one, or a directory the walk goes on from
      cases hget : t.get? (d ++ [a]) with
      | none => exact ⟨d ++ [a], hlift (by rw [hdown]; cases as <;> simp [List.scanl_cons]), hget⟩
      | some n =>
        rw [hget] at h
        cases n with
        | directory =>
          obtain ⟨y, hy, hnone⟩ := ih' h
          exact ⟨y, hlift (by rw [hdown]; exact hy), hnone⟩
        | file c b => cases h

/-- **Missing for creation is missing at the place.** Creating one directory down a path of a
real tree fails as missing only where reading the path stops at a missing entry, and then
nothing stands at the place the path names. -/
theorem get?_place_of_makeDir_notFound {t : FileTree} (ht : t.Valid) {cwd : Location}
    {path : String} (hne : path ≠ "") (hdown : Downward path)
    (h : t.makeDir cwd path = .error .notFound) : t.get? (place cwd path) = none := by
  -- the walk to the directory of the last name stopped at a missing entry
  have hwalk := walk_of_resolve_error hne (resolve_of_makeDir_notFound h)
  obtain ⟨trail, hchunks, -⟩ := chunks_eq_trimmedChunks_append path
  obtain ⟨rest, hrest⟩ := List.dropLast_prefix (trimmedChunks path)
  have hsplit : chunks path = (trimmedChunks path).dropLast ++ (rest ++ trail) := by
    rw [hchunks, ← List.append_assoc, hrest]
  have hl : ∀ c ∈ (trimmedChunks path).dropLast, c ≠ ".." := fun c hc heq =>
    hdown (by rw [hsplit]; exact List.mem_append_left _ (heq ▸ hc))
  obtain ⟨y, hy, hnone⟩ := exists_none_of_walk hl hwalk
  have hpre : y <+: place cwd path :=
    (prefix_of_mem_trace hdown (by unfold trace; rw [hsplit]; exact mem_scanl_append_left hy)).2
  -- the missing entry is the place itself, or a location above it
  by_cases hat : y = place cwd path
  · rw [← hat]
    exact hnone
  · exact ht.get?_eq_none_of_below hpre hat (by rw [hnone]; simp)

/-- **A path to a name fails only before it makes anything.** Along a path without `..` that ends
in a name, creating it with its parents fails only where a file stands on its trace, and then
its first step already fails, before anything is made: the tree is left as it was. -/
theorem makeDirAllFuel_error_of_endsInName {t t' : FileTree} (ht : t.Valid) {cwd : Location}
    (hcwd : ∀ n ∈ cwd, ValidName n) (hdir : t.get? cwd = some .directory) {fuel : Nat}
    {path : String} (hfuel : path.length < fuel) (hdown : Downward path) (hname : EndsInName path)
    {e : IoError} (h : makeDirAllFuel cwd fuel t path = .error (e, t')) : t' = t := by
  -- with no file on the trace the creation succeeds, so a file stands somewhere on it
  by_cases hpass : ∀ x ∈ trace cwd path, t.Passable x
  · obtain ⟨t₁, hok⟩ := makeDirAllFuel_ok ht hcwd hdir hfuel hdown hpass (Or.inl hname)
    rw [hok] at h
    cases h
  simp only [not_forall] at hpass
  obtain ⟨x, hx, hnotpass⟩ := hpass
  obtain ⟨c, b, hget⟩ : ∃ c b, t.get? x = some (.file c b) := by
    unfold Passable at hnotpass
    rcases hnode : t.get? x with _ | _ | ⟨c, b⟩
    · exact absurd (Or.inl hnode) hnotpass
    · exact absurd (Or.inr hnode) hnotpass
    · exact ⟨c, b, rfl⟩
  obtain ⟨init, n, hsplit, hn⟩ := trimmedChunks_of_endsInName hdown hname
  have hinit : ∀ c ∈ init, c ≠ ".." := fun c hc hup => by
    obtain ⟨trail, hchunks, -⟩ := chunks_eq_trimmedChunks_append path
    exact hdown (by rw [hchunks, hsplit]; simp [← hup, hc])
  have hplace : place cwd path = init.foldl descend (startOf cwd path) ++ [n] := by
    rw [place_eq_foldl_trimmedChunks, hsplit, List.foldl_concat, descend_of_validName hn]
  have hne : path ≠ "" := by
    rintro rfl
    obtain ⟨m, hm, -⟩ := hname
    simp [trimmedChunks, chunks, Path.chunks] at hm
  -- the path names no directory: the file stands at its place or above it
  have hnd : t.isDirectory? cwd path = false := by
    rw [Bool.eq_false_iff]
    intro hisdir
    have hpl := get?_place_of_isDirectory? hisdir
    by_cases hat : x = place cwd path
    · rw [← hat, hget] at hpl
      cases hpl
    · rw [ht.get?_above hpl (prefix_of_mem_trace hdown hx).2 hat] at hget
      cases hget
  -- its first step stops at the file, on the way or at the place itself
  obtain ⟨e₀, hmk, he₀⟩ : ∃ e₀, t.makeDir cwd path = .error e₀ ∧ e₀ ≠ .notFound := by
    rw [makeDir_of_trimmedChunks hsplit hn]
    rcases mem_trace_of_endsInName hsplit hn hx with hx | rfl
    · rw [walk_of_file ht hinit (get?_startOf hdir path) hx hget]
      exact ⟨_, rfl, by decide⟩
    · have hD : t.get? (init.foldl descend (startOf cwd path)) = some .directory :=
        ht.get?_above hget (by rw [hplace]; exact List.prefix_append _ _) (by simp [hplace])
      rw [walk_of_downward ht hinit hD]
      simp only [Except.bind, ← hplace, hget]
      exact ⟨_, rfl, by decide⟩
  obtain ⟨f, rfl⟩ : ∃ f, fuel = f + 1 := ⟨fuel - 1, by omega⟩
  rw [makeDirAllFuel_of_makeDir_error hne hmk he₀ hnd] at h
  cases h
  rfl

/-- Creating again what a successful creation made changes nothing. -/
theorem makeDirAllFuel_again {t t' : FileTree} (ht : t.Valid) {cwd : Location}
    (hcwd : ∀ n ∈ cwd, ValidName n) (hdir : t.get? cwd = some .directory) {fuel : Nat}
    {path : String} (hfuel : path.length < fuel) (hdown : Downward path)
    (h : makeDirAllFuel cwd fuel t path = .ok t') : makeDirAllFuel cwd fuel t' path = .ok t' := by
  obtain ⟨f, rfl⟩ : ∃ f, fuel = f + 1 := ⟨fuel - 1, by omega⟩
  by_cases hempty : path = ""
  · subst hempty
    simp [FileTree.makeDirAllFuel]
  exact makeDirAllFuel_of_directory (ht.makeDirAllFuel hcwd hdir h).1 hempty hdown
    (makeDirAllFuel_place hdir hfuel h)

/-- **How a creation down a path fails.** Along a path without `..`, a creation with its parents
that fails either changed nothing, or made the directories above and then failed on the path
itself. Making the directories above does not fail part way: the parent ends in a name, or names
where reading starts, which is a directory. -/
theorem makeDirAllFuel_error_of_downward {t t' : FileTree} (ht : t.Valid) {cwd : Location}
    (hcwd : ∀ n ∈ cwd, ValidName n) (hdir : t.get? cwd = some .directory) {fuel : Nat}
    {path : String} (hfuel : path.length < fuel + 1) (hdown : Downward path) {e : IoError}
    (h : makeDirAllFuel cwd (fuel + 1) t path = .error (e, t')) :
    t' = t ∨ ∃ q, Path.parent path = some q ∧ t.makeDir cwd path = .error .notFound ∧
      makeDirAllFuel cwd fuel t q = .ok t' ∧ t'.makeDir cwd path = .error e ∧
        t'.isDirectory? cwd path = false := by
  rcases makeDirAllFuel_eq_error h with rfl | ⟨q, hq, hnf, hparent | hmade⟩
  · exact Or.inl rfl
  · -- the parent's creation failed; it changed nothing
    have hqlen : q.length < fuel := by
      have := length_parent_lt hq
      omega
    have hqdown := downward_of_parent hq hdown
    have hne := ne_empty_of_parent hq
    refine Or.inl ?_
    rcases place_parent cwd hq with hstart | ⟨-, hqname | hqstart⟩
    · -- the path names where reading starts, a directory: it is not missing
      have hlook := lookup_of_downward ht hne hdown (hstart ▸ get?_startOf hdir path)
      exact absurd hnf (makeDir_ne_notFound hlook)
    · exact makeDirAllFuel_error_of_endsInName ht hcwd hdir hqlen hqdown hqname hparent
    · -- the parent names where reading starts, a directory, so its creation succeeds
      by_cases hqe : q = ""
      · subst hqe
        cases fuel <;> simp [FileTree.makeDirAllFuel] at hparent
      obtain ⟨f, rfl⟩ : ∃ f, fuel = f + 1 := ⟨fuel - 1, by omega⟩
      rw [makeDirAllFuel_of_directory ht hqe hqdown (hqstart ▸ get?_startOf hdir q)] at hparent
      cases hparent
  · exact Or.inr ⟨q, hq, hnf, hmade⟩

/-- **A failed creation, tried again, fails the same way.** Along a path without `..`, creating a
directory with its parents where a first attempt failed changes nothing more and fails as the
first did: on the tree the first attempt left, the directories above are found made, and the path
itself fails again. -/
theorem makeDirAllFuel_error_again {t t' : FileTree} (ht : t.Valid) {cwd : Location}
    (hcwd : ∀ n ∈ cwd, ValidName n) (hdir : t.get? cwd = some .directory) {fuel : Nat}
    {path : String} (hfuel : path.length < fuel) (hdown : Downward path) {e : IoError}
    (h : makeDirAllFuel cwd fuel t path = .error (e, t')) :
    makeDirAllFuel cwd fuel t' path = .error (e, t') := by
  obtain ⟨f, rfl⟩ : ∃ f, fuel = f + 1 := ⟨fuel - 1, by omega⟩
  rcases makeDirAllFuel_error_of_downward ht hcwd hdir hfuel hdown h with
    rfl | ⟨q, hq, -, hok, hmk, hnd⟩
  · exact h
  have hqlen : q.length < f := by
    have := length_parent_lt hq
    omega
  have hagain := makeDirAllFuel_again ht hcwd hdir hqlen (downward_of_parent hq hdown) hok
  have hne := ne_empty_of_parent hq
  have hempty : path.isEmpty = false := by simpa using hne
  by_cases he : e = .notFound
  · subst he
    simp only [FileTree.makeDirAllFuel, hempty, Bool.false_eq_true, if_false, hmk,
      beq_self_eq_true, if_true, hq, hagain, bind, Except.bind, hnd]
  · exact makeDirAllFuel_of_makeDir_error hne hmk he hnd

end FileTree

end ReleaseBuild
