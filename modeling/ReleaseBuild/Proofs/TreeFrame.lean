import Mathlib.Data.Set.Basic
import ReleaseBuild.Proofs.Places
/-!
# What each file operation may change

A release changes its files through a few operations of the file tree: creating a directory,
creating a directory with its parents, writing a file, copying one and removing an entry with
everything below it. This module says, for each, which locations it may change and how.

A `FileTree.Region` names three sets of locations: where a missing entry may become a directory
(`dirs`), where a missing entry or a file may become a file (`files`), and where anything may
happen, removal included (`free`). A change of the tree stays `Within` a region when at every
location it is one the region allows, and when it keeps every entry validly named: the names of
a real directory's entries are never empty, `.` or `..`, and hold no separator, and removing the
entries of a directory by name relies on that.

The operations resolve their paths the way the kernel does, checking on the way that every
location passed through is a directory; where they end is where the path's text leads
(`resolve_location`). So:

* creating a directory makes one missing directory, at the place the path names
  (`makeDir_eq_ok`), and creating one with its parents makes directories only along the path's
  trace, also when it stops at a failure (`within_makeDirAllFuel`);
* writing a file and copying one make a file at the place of the destination, from nothing or
  from a file (`within_writeFile`, `within_copy`);
* removing a file or a directory removes the place the path names and what is below it
  (`within_removeFile`, `within_removeDirAll`).
-/

set_option autoImplicit false

namespace ReleaseBuild

namespace FileTree

/-! ## Regions -/

/-- Every entry of the tree is named by valid names. -/
def WellNamed (t : FileTree) : Prop := ∀ e ∈ t.entries, ∀ n ∈ e.1, ValidName n

/-- Where a change of the tree is allowed, by kind: at `dirs` a missing entry may become a
directory, at `files` a missing entry or a file may become a file, and at `free` anything may
happen. -/
structure Region where
  dirs : Set Location := ∅
  files : Set Location := ∅
  free : Set Location := ∅

namespace Region

instance : Union Region := ⟨fun R S => ⟨R.dirs ∪ S.dirs, R.files ∪ S.files, R.free ∪ S.free⟩⟩

instance : LE Region := ⟨fun R S => R.dirs ⊆ S.dirs ∧ R.files ⊆ S.files ∧ R.free ⊆ S.free⟩

@[simp] theorem union_dirs (R S : Region) : (R ∪ S).dirs = R.dirs ∪ S.dirs := rfl
@[simp] theorem union_files (R S : Region) : (R ∪ S).files = R.files ∪ S.files := rfl
@[simp] theorem union_free (R S : Region) : (R ∪ S).free = R.free ∪ S.free := rfl

theorem le_union_left (R S : Region) : R ≤ R ∪ S :=
  ⟨Set.subset_union_left, Set.subset_union_left, Set.subset_union_left⟩

/-- What a region allows at one location, from the entry there before to the entry after: no
change, anything where it is free, a new directory where directories may be made, and a file
made from nothing or from a file where files may be written. -/
def Allows (R : Region) (loc : Location) (before after : Option Node) : Prop :=
  before = after ∨ loc ∈ R.free ∨
    (loc ∈ R.dirs ∧ before = none ∧ after = some .directory) ∨
    (loc ∈ R.files ∧ (before = none ∨ ∃ c x, before = some (.file c x)) ∧
      ∃ c x, after = some (.file c x))

theorem Allows.refl (R : Region) (loc : Location) (n : Option Node) : R.Allows loc n n :=
  Or.inl rfl

/-- A new directory is allowed where directories may be made, and where anything goes. -/
theorem Allows.of_dir {R : Region} {loc : Location} (h : loc ∈ R.dirs ∪ R.free) :
    R.Allows loc none (some .directory) := by
  rcases h with h | h
  · exact Or.inr (Or.inr (Or.inl ⟨h, rfl, rfl⟩))
  · exact Or.inr (Or.inl h)

/-- A file written over nothing or over a file is allowed where files may be written, and
where anything goes. -/
theorem Allows.of_file {R : Region} {loc : Location} {before : Option Node}
    (h : loc ∈ R.files ∪ R.free) (hb : before = none ∨ ∃ c x, before = some (.file c x))
    (c : String) (x : Bool) : R.Allows loc before (some (.file c x)) := by
  rcases h with h | h
  · exact Or.inr (Or.inr (Or.inr ⟨h, hb, c, x, rfl⟩))
  · exact Or.inr (Or.inl h)

theorem Allows.mono {R S : Region} (hRS : R ≤ S) {loc : Location} {before after : Option Node}
    (h : R.Allows loc before after) : S.Allows loc before after := by
  rcases h with h | h | ⟨h, hb⟩ | ⟨h, hb⟩
  · exact Or.inl h
  · exact Or.inr (Or.inl (hRS.2.2 h))
  · exact Or.inr (Or.inr (Or.inl ⟨hRS.1 h, hb⟩))
  · exact Or.inr (Or.inr (Or.inr ⟨hRS.2.1 h, hb⟩))

/-- Two changes a region allows, one after the other, make a change it allows: a directory made
stays a directory, and a file written stays a file. -/
theorem Allows.trans {R : Region} {loc : Location} {a b c : Option Node}
    (h₁ : R.Allows loc a b) (h₂ : R.Allows loc b c) : R.Allows loc a c := by
  rcases h₁ with rfl | hfree | ⟨hdirs, rfl, rfl⟩ | ⟨hfiles, ha, c₁, x₁, rfl⟩
  · exact h₂
  · exact Or.inr (Or.inl hfree)
  · -- a new directory: only no change can follow, apart from what is free
    rcases h₂ with rfl | hfree | ⟨-, hb, -⟩ | ⟨-, hb, -⟩
    · exact Or.inr (Or.inr (Or.inl ⟨hdirs, rfl, rfl⟩))
    · exact Or.inr (Or.inl hfree)
    · cases hb
    · simp at hb
  · -- a written file: it stays, or it is written again
    rcases h₂ with rfl | hfree | ⟨-, hb, -⟩ | ⟨-, -, hc⟩
    · exact Or.inr (Or.inr (Or.inr ⟨hfiles, ha, c₁, x₁, rfl⟩))
    · exact Or.inr (Or.inl hfree)
    · cases hb
    · exact Or.inr (Or.inr (Or.inr ⟨hfiles, ha, hc⟩))

end Region

/-- The tree `t'` is `t` changed within the region: at every location the change is one the
region allows, and a validly named tree stays validly named. -/
structure Within (R : Region) (t t' : FileTree) : Prop where
  allows : ∀ loc, R.Allows loc (t.get? loc) (t'.get? loc)
  wellNamed : WellNamed t → WellNamed t'

namespace Within

theorem refl (R : Region) (t : FileTree) : Within R t t :=
  ⟨fun loc => Region.Allows.refl R loc _, id⟩

theorem trans {R : Region} {t₁ t₂ t₃ : FileTree} (h₁ : Within R t₁ t₂) (h₂ : Within R t₂ t₃) :
    Within R t₁ t₃ :=
  ⟨fun loc => (h₁.allows loc).trans (h₂.allows loc), fun h => h₂.wellNamed (h₁.wellNamed h)⟩

theorem mono {R S : Region} (hRS : R ≤ S) {t t' : FileTree} (h : Within R t t') :
    Within S t t' :=
  ⟨fun loc => (h.allows loc).mono hRS, h.wellNamed⟩

end Within

/-! ## Storing and removing entries -/

@[simp] theorem get?_nil (t : FileTree) : t.get? [] = some .directory := rfl

theorem get?_put_of_ne {t : FileTree} {loc x : Location} (n : Node) (h : x ≠ loc) :
    (t.put loc n).get? x = t.get? x := by
  unfold get? put
  split
  · rfl
  · -- the entry stored is not the one looked up, nor is any of those it replaces
    have hlast : [(loc, n)].find? (·.1 == x) = none := by simp [Ne.symm h]
    have hkeep : (fun e : Location × Node => decide ((e.1 != loc) = true ∧ (e.1 == x) = true)) =
        fun e => e.1 == x := by
      funext e
      by_cases he : e.1 = x
      · simp [he, h]
      · simp [he]
    rw [List.find?_append, List.find?_filter, hkeep, hlast, Option.or_none]

theorem get?_put_self {t : FileTree} {loc : Location} (n : Node) (h : loc ≠ []) :
    (t.put loc n).get? loc = some n := by
  have hnone : (t.entries.filter (·.1 != loc)).find? (·.1 == loc) = none := by
    simp [List.find?_eq_none]
  simp [get?, put, h, List.find?_append, hnone]

/-- Removing a location's tree keeps every location not below it. -/
theorem get?_removeTree_outside {t : FileTree} {loc x : Location} (h : ¬loc <+: x) :
    (t.removeTree loc).get? x = t.get? x := by
  unfold get? removeTree
  split
  · rfl
  · -- only entries below the removed location go, and the one looked up is not below it
    have hkeep : (fun e : Location × Node => decide ((!loc.isPrefixOf e.1) = true ∧
        (e.1 == x) = true)) = fun e => e.1 == x := by
      have hnot : loc.isPrefixOf x = false := Bool.eq_false_iff.2 (mt List.isPrefixOf_iff_prefix.1 h)
      funext e
      by_cases he : e.1 = x
      · simp [he, hnot]
      · simp [he]
    rw [List.find?_filter, hkeep]

theorem wellNamed_put {t : FileTree} (ht : WellNamed t) {loc : Location}
    (hloc : ∀ n ∈ loc, ValidName n) (node : Node) : WellNamed (t.put loc node) := by
  intro e he
  simp only [put, List.mem_append, List.mem_filter, List.mem_singleton] at he
  rcases he with ⟨he, -⟩ | rfl
  · exact ht e he
  · exact hloc

theorem wellNamed_removeTree {t : FileTree} (ht : WellNamed t) (loc : Location) :
    WellNamed (t.removeTree loc) := by
  intro e he
  simp only [removeTree, List.mem_filter] at he
  exact ht e he.1

/-- Storing an entry changes only its location, as the region allows there. -/
theorem within_put {R : Region} {t : FileTree} {loc : Location} {n : Node} (hloc : loc ≠ [])
    (hvalid : ∀ name ∈ loc, ValidName name) (hallow : R.Allows loc (t.get? loc) (some n)) :
    Within R t (t.put loc n) := by
  refine ⟨fun x => ?_, fun ht => wellNamed_put ht hvalid n⟩
  by_cases hx : x = loc
  · subst hx
    rw [get?_put_self n hloc]
    exact hallow
  · rw [get?_put_of_ne n hx]
    exact Region.Allows.refl R x _

/-- Removing an entry with everything below it changes only locations below it, which must be
free. -/
theorem within_removeTree {R : Region} {t : FileTree} {loc : Location}
    (hfree : ∀ x, loc <+: x → x ∈ R.free) : Within R t (t.removeTree loc) := by
  refine ⟨fun x => ?_, fun ht => wellNamed_removeTree ht loc⟩
  by_cases hx : loc <+: x
  · exact Or.inr (Or.inl (hfree x hx))
  · rw [get?_removeTree_outside hx]
    exact Region.Allows.refl R x _

/-! ## Where a lookup ends -/

/-- Walking through directories reads the names as their text does. -/
theorem walk_eq_ok {t : FileTree} {dir d : Location} {cs : List String}
    (h : t.walk dir cs = .ok d) : d = cs.foldl descend dir := by
  induction cs generalizing dir with
  | nil =>
    simp only [walk, Except.ok.injEq] at h
    exact h.symm
  | cons c cs ih =>
    simp only [walk] at h
    rw [List.foldl_cons]
    split at h
    · rename_i htriv
      rw [ih h, descend, if_pos htriv]
    · rename_i htriv
      split at h
      · rename_i hup
        rw [ih h, descend, if_neg htriv, if_pos hup]
      · rename_i hup
        split at h
        · rw [ih h, descend, if_neg htriv, if_neg hup]
        · cases h
        · cases h

/-- Empty names read nothing. -/
theorem foldl_descend_of_forall_empty {l : List String} (h : ∀ c ∈ l, c = "") (a : Location) :
    l.foldl descend a = a := by
  induction l generalizing a with
  | nil => rfl
  | cons c cs ih =>
    rw [List.foldl_cons, h c (by simp), descend_empty]
    exact ih (fun c' hc' => h c' (by simp [hc'])) a

/-- A path's names are those kept after trimming, then empty ones. -/
theorem chunks_eq_trimmedChunks_append (path : String) :
    ∃ trail, chunks path = trimmedChunks path ++ trail ∧ ∀ c ∈ trail, c = "" := by
  refine ⟨((chunks path).reverse.takeWhile (· == "")).reverse, ?_, fun c hc => ?_⟩
  · calc chunks path = (chunks path).reverse.reverse := (List.reverse_reverse _).symm
      _ = ((chunks path).reverse.takeWhile (· == "") ++
            (chunks path).reverse.dropWhile (· == "")).reverse := by
          rw [List.takeWhile_append_dropWhile]
      _ = _ := by rw [List.reverse_append]; rfl
  · have hall := List.all_takeWhile (l := (chunks path).reverse) (p := (· == ""))
    simpa using List.all_eq_true.1 hall c (List.mem_reverse.1 hc)

/-- The empty names that trailing separators leave read nothing. -/
theorem place_eq_foldl_trimmedChunks (cwd : Location) (path : String) :
    place cwd path = (trimmedChunks path).foldl descend (startOf cwd path) := by
  obtain ⟨trail, hsplit, htrail⟩ := chunks_eq_trimmedChunks_append path
  rw [place, hsplit, List.foldl_append, foldl_descend_of_forall_empty htrail]

/-- A relative path that is not empty has a first name that says something. -/
theorem exists_chunk_ne_empty {path : String} (hne : path ≠ "")
    (hrel : ¬path.startsWith "/" = true) : ∃ c ∈ chunks path, c ≠ "" := by
  obtain ⟨c, cs, hcs⟩ := List.exists_cons_of_ne_nil (mt String.toList_eq_nil_iff.1 hne)
  have hc : c ≠ '/' := fun hc => hrel (by simp [String.startsWith_string_iff, hcs, hc])
  obtain ⟨first, rest, hsplit⟩ := List.exists_cons_of_ne_nil (List.splitOn_ne_nil '/' cs)
  refine ⟨String.ofList (c :: first), ?_, ?_⟩
  · simp [chunks, Path.chunks, hcs, List.splitOn_cons_eq_if_modifyHead, hc, hsplit]
  · intro h
    simpa using congrArg String.toList h

/-- A path that is not empty and has only empty names is made of separators alone. -/
theorem startsWith_of_trimmedChunks_eq_nil {path : String} (hne : path ≠ "")
    (h : trimmedChunks path = []) : path.startsWith "/" = true := by
  by_contra hrel
  obtain ⟨c, hc, hne'⟩ := exists_chunk_ne_empty hne hrel
  obtain ⟨trail, hsplit, htrail⟩ := chunks_eq_trimmedChunks_append path
  rw [hsplit, h, List.nil_append] at hc
  exact hne' (htrail c hc)

/-- **Where a lookup ends.** A path that resolves leads where its text says. -/
theorem resolve_location {t : FileTree} {cwd : Location} {path : String} {target : Target}
    (h : t.resolve cwd path = .ok target) : target.location = place cwd path := by
  unfold resolve at h
  split at h
  · cases h
  · rename_i hne
    dsimp only at h
    rw [show (if path.startsWith "/" = true then [] else cwd) = startOf cwd path from rfl] at h
    rw [place_eq_foldl_trimmedChunks]
    split at h
    · -- only empty names: a path of separators alone, which names the root
      rename_i hparts
      cases h
      have hnil := List.getLast?_eq_none_iff.1 hparts
      have hroot := startsWith_of_trimmedChunks_eq_nil (by simpa using hne) hnil
      simp [Target.location, startOf, hroot, hnil]
    · -- the names but the last lead through directories, and the last is read there
      rename_i last hlast
      obtain ⟨init, hinit⟩ := List.getLast?_eq_some_iff.1 hlast
      rw [hinit, List.dropLast_concat] at h
      rw [hinit, List.foldl_append, List.foldl_cons, List.foldl_nil]
      cases hw : t.walk (startOf cwd path) init with
      | error e =>
        rw [hw] at h
        cases h
      | ok dir =>
        rw [hw] at h
        dsimp only [bind, Except.bind] at h
        rw [← walk_eq_ok hw]
        split at h
        · rename_i htriv
          cases h
          simp [Target.location, descend, htriv]
        · rename_i htriv
          split at h
          · rename_i hup
            cases h
            simp only [Target.location, descend, htriv, hup, if_true, Bool.false_eq_true,
              if_false, Option.toList_none, List.append_nil]
          · rename_i hup
            cases h
            simp only [Target.location, descend, htriv, hup, Bool.false_eq_true, if_false,
              Option.toList_some]

/-- A path that names an entry names it at the place its text leads to. -/
theorem lookup_eq_ok {t : FileTree} {cwd : Location} {path : String} {loc : Location} {n : Node}
    (h : t.lookup cwd path = .ok (loc, n)) : loc = place cwd path ∧ t.get? loc = some n := by
  unfold lookup at h
  cases hr : t.resolve cwd path with
  | error e =>
    rw [hr] at h
    cases h
  | ok target =>
    rw [hr] at h
    dsimp only [bind, Except.bind] at h
    have hloc := resolve_location hr
    split at h
    · cases h
    · rename_i c x hget
      split at h
      · cases h
      · cases h
        exact ⟨hloc, hget⟩
    · rename_i hget
      cases h
      exact ⟨hloc, hget⟩

/-! ## The operations -/

section Operations

variable {R : Region} {t t' : FileTree} {cwd : Location}

/-- Creating a directory stores one at the place the path names, where nothing was. -/
theorem makeDir_eq_ok {path : String} (h : t.makeDir cwd path = .ok t') :
    place cwd path ≠ [] ∧ t.get? (place cwd path) = none ∧
      t' = t.put (place cwd path) .directory := by
  unfold makeDir at h
  cases hr : t.resolve cwd path with
  | error e =>
    rw [hr] at h
    cases h
  | ok target =>
    rw [hr] at h
    dsimp only [bind, Except.bind] at h
    rw [← resolve_location hr]
    split at h
    · cases h
    · rename_i leaf hleaf
      split at h
      · cases h
      · rename_i hget
        cases h
        exact ⟨by simp [Target.location, hleaf], hget, rfl⟩

theorem within_makeDir (hcwd : ∀ n ∈ cwd, ValidName n) {path : String}
    (hdirs : place cwd path ∈ R.dirs ∪ R.free) (h : t.makeDir cwd path = .ok t') :
    Within R t t' := by
  obtain ⟨hne, hget, rfl⟩ := makeDir_eq_ok h
  exact within_put hne (valid_place hcwd path) (hget ▸ Region.Allows.of_dir hdirs)

/-- The tree an attempt at creating directories leaves: the new tree, or the one a failure left
behind. -/
def leftBy : Except (IoError × FileTree) FileTree → FileTree
  | .ok t => t
  | .error (_, t) => t

@[simp] theorem leftBy_ok (t : FileTree) : leftBy (.ok t) = t := rfl

@[simp] theorem leftBy_error (e : IoError) (t : FileTree) : leftBy (.error (e, t)) = t := rfl

/-- The tree a creation step leaves is the one its attempt leaves. -/
theorem createDirAll_snd (t : FileTree) (cwd : Location) (path : String) :
    (t.createDirAll cwd path).2 = leftBy (t.makeDirAll cwd path) := by
  unfold createDirAll
  cases t.makeDirAll cwd path with
  | ok t' => rfl
  | error err => rfl

/-- **One directory at a time.** Creating a directory with its parents makes one directory at a
time, each at a path that passes only through locations the given one passes through: a property
of trees that holds before and that each such step keeps holds of the tree the attempt leaves,
whether it succeeds or stops at a failure. -/
theorem leftBy_makeDirAllFuel_of_step (P : FileTree → Prop) {path : String}
    (hstep : ∀ {s s' : FileTree} {q : String}, (∀ loc ∈ trace cwd q, loc ∈ trace cwd path) →
      P s → s.makeDir cwd q = .ok s' → P s')
    (fuel : Nat) (ht : P t) : P (leftBy (makeDirAllFuel cwd fuel t path)) := by
  induction fuel generalizing t path with
  | zero => exact ht
  | succ fuel ih =>
    have hhere : ∀ {s s' : FileTree}, P s → s.makeDir cwd path = .ok s' → P s' :=
      hstep fun _ => id
    rw [makeDirAllFuel]
    split
    · exact ht
    · split
      · rename_i t₁ hmk
        exact hhere ht hmk
      · split
        · split
          · -- the parent is made first, then the directory itself
            rename_i p hp
            have h₁ : P (leftBy (makeDirAllFuel cwd fuel t p)) :=
              ih (fun hq => hstep fun loc hloc => mem_trace_of_parent hp (hq loc hloc)) ht
            cases hrec : makeDirAllFuel cwd fuel t p with
            | error err =>
              rw [hrec] at h₁
              exact h₁
            | ok t₁ =>
              rw [hrec] at h₁
              dsimp only [bind, Except.bind]
              split
              · rename_i t₂ hmk
                exact hhere h₁ hmk
              · split <;> exact h₁
          · exact ht
        · split <;> exact ht

/-- **Creating a directory with its parents** makes directories only along the path's trace,
whether it succeeds or stops at a failure. -/
theorem within_makeDirAllFuel (hcwd : ∀ n ∈ cwd, ValidName n) (fuel : Nat) {path : String}
    (hdirs : ∀ loc ∈ trace cwd path, loc ∈ R.dirs ∪ R.free) :
    Within R t (leftBy (makeDirAllFuel cwd fuel t path)) := by
  refine leftBy_makeDirAllFuel_of_step (Within R t) (fun hq hs hmk => ?_) fuel (Within.refl R t)
  -- each directory is made at the place of a path read along this one
  exact hs.trans (within_makeDir hcwd (hdirs _ (hq _ (place_mem_trace cwd _))) hmk)

/-- A creation that succeeds made directories only along the path's trace. -/
theorem within_makeDirAll (hcwd : ∀ n ∈ cwd, ValidName n) {path : String}
    (hdirs : ∀ loc ∈ trace cwd path, loc ∈ R.dirs ∪ R.free) (h : t.makeDirAll cwd path = .ok t') :
    Within R t t' := by
  have hw := within_makeDirAllFuel (R := R) (t := t) hcwd (path.length + 1) hdirs
  rw [show makeDirAllFuel cwd (path.length + 1) t path = .ok t' from h, leftBy_ok] at hw
  exact hw

/-- The creation step, which keeps on a failure the directories it made. -/
theorem within_createDirAll (hcwd : ∀ n ∈ cwd, ValidName n) {path : String}
    (hdirs : ∀ loc ∈ trace cwd path, loc ∈ R.dirs ∪ R.free) :
    Within R t (t.createDirAll cwd path).2 := by
  rw [createDirAll_snd]
  exact within_makeDirAllFuel hcwd _ hdirs

/-- Opening a file with truncation stores an empty file at the place the path names, where
nothing or a file was. -/
theorem openTruncate_eq_ok {path : String} {x : Bool} {loc : Location}
    (h : t.openTruncate cwd path x = .ok (t', loc)) :
    loc = place cwd path ∧ loc ≠ [] ∧
      (t.get? loc = none ∨ ∃ c y, t.get? loc = some (.file c y)) ∧
      ∃ y, t' = t.put loc (.file "" y) := by
  unfold openTruncate at h
  cases hr : t.resolve cwd path with
  | error e =>
    rw [hr] at h
    cases h
  | ok target =>
    rw [hr] at h
    dsimp only [bind, Except.bind] at h
    have hloc := resolve_location hr
    split at h
    · cases h
    · rename_i leaf hleaf
      have hne : target.location ≠ [] := by simp [Target.location, hleaf]
      split at h
      · cases h
      · rename_i c y hget
        split at h
        · cases h
        · cases h
          exact ⟨hloc, hne, Or.inr ⟨c, y, hget⟩, y, rfl⟩
      · rename_i hget
        split at h
        · cases h
        · cases h
          exact ⟨hloc, hne, Or.inl hget, x, rfl⟩

theorem within_setContent {loc : Location} (hvalid : ∀ n ∈ loc, ValidName n)
    (hfiles : loc ∈ R.files ∪ R.free) (content : String) :
    Within R t (t.setContent loc content) := by
  unfold setContent
  split
  · rename_i c x hget
    -- the root is a directory, so a file is never there
    have hne : loc ≠ [] := by
      rintro rfl
      simp at hget
    exact within_put hne hvalid
      (Region.Allows.of_file hfiles (Or.inr ⟨c, x, hget⟩) content x)
  · exact Within.refl R t

theorem within_setExecutable {loc : Location} (hvalid : ∀ n ∈ loc, ValidName n)
    (hfiles : loc ∈ R.files ∪ R.free) (x : Bool) : Within R t (t.setExecutable loc x) := by
  unfold setExecutable
  split
  · rename_i c y hget
    have hne : loc ≠ [] := by
      rintro rfl
      simp at hget
    exact within_put hne hvalid
      (Region.Allows.of_file hfiles (Or.inr ⟨c, y, hget⟩) c x)
  · exact Within.refl R t

theorem within_openTruncate (hcwd : ∀ n ∈ cwd, ValidName n) {path : String} {x : Bool}
    {loc : Location} (hfiles : place cwd path ∈ R.files ∪ R.free)
    (h : t.openTruncate cwd path x = .ok (t', loc)) : loc = place cwd path ∧ Within R t t' := by
  obtain ⟨rfl, hne, hbefore, y, rfl⟩ := openTruncate_eq_ok h
  exact ⟨rfl, within_put hne (valid_place hcwd path)
    (Region.Allows.of_file hfiles hbefore "" y)⟩

/-- Writing a whole file changes only the file at the place the path names. -/
theorem within_writeFile (hcwd : ∀ n ∈ cwd, ValidName n) {path content : String}
    (hfiles : place cwd path ∈ R.files ∪ R.free) (h : t.writeFile cwd path content = .ok t') :
    Within R t t' := by
  unfold writeFile at h
  cases ho : t.openTruncate cwd path false with
  | error e =>
    rw [ho] at h
    cases h
  | ok r =>
    obtain ⟨t₁, loc⟩ := r
    rw [ho] at h
    cases h
    obtain ⟨rfl, h₁⟩ := within_openTruncate hcwd hfiles ho
    exact h₁.trans (within_setContent (valid_place hcwd path) hfiles content)

/-- Copying a file changes only the file at the place the destination names. -/
theorem within_copy (hcwd : ∀ n ∈ cwd, ValidName n) {src dst : String}
    (hfiles : place cwd dst ∈ R.files ∪ R.free) (h : t.copy cwd src dst = .ok t') :
    Within R t t' := by
  unfold copy at h
  cases hl : t.lookup cwd src with
  | error e =>
    rw [hl] at h
    cases h
  | ok r =>
    obtain ⟨srcLoc, node⟩ := r
    rw [hl] at h
    dsimp only [bind, Except.bind] at h
    split at h
    · cases h
    · rename_i c x
      cases ho : t.openTruncate cwd dst x with
      | error e =>
        rw [ho] at h
        cases h
      | ok r =>
        obtain ⟨t₁, loc⟩ := r
        rw [ho] at h
        cases h
        obtain ⟨rfl, h₁⟩ := within_openTruncate hcwd hfiles ho
        have hvalid := valid_place hcwd dst
        exact (h₁.trans (within_setExecutable hvalid hfiles x)).trans
          (within_setContent hvalid hfiles _)

/-- Removing a file removes the place the path names. -/
theorem within_removeFile {path : String} (hfree : ∀ x, place cwd path <+: x → x ∈ R.free)
    (h : t.removeFile cwd path = .ok t') : Within R t t' := by
  unfold removeFile at h
  cases hl : t.lookup cwd path with
  | error e =>
    rw [hl] at h
    cases h
  | ok r =>
    obtain ⟨loc, node⟩ := r
    rw [hl] at h
    dsimp only [bind, Except.bind] at h
    obtain ⟨rfl, -⟩ := lookup_eq_ok hl
    split at h
    · cases h
    · cases h
      exact within_removeTree hfree

/-- Removing a directory removes the place the path names and everything below it. -/
theorem within_removeDirAll {path : String} (hfree : ∀ x, place cwd path <+: x → x ∈ R.free)
    (h : t.removeDirAll cwd path = .ok t') : Within R t t' := by
  unfold removeDirAll at h
  cases hl : t.lookup cwd path with
  | error e =>
    rw [hl] at h
    cases h
  | ok r =>
    obtain ⟨loc, node⟩ := r
    rw [hl] at h
    dsimp only [bind, Except.bind] at h
    obtain ⟨rfl, -⟩ := lookup_eq_ok hl
    split at h
    · cases h
      exact within_removeTree hfree
    · cases h

/-- Listing a directory gives the names of the entries directly inside the place the path
names. -/
theorem readDir_eq_ok {path : String} {loc : Location} {names : List String}
    (h : t.readDir cwd path = .ok (loc, names)) :
    loc = place cwd path ∧ names = t.childNames loc := by
  unfold readDir at h
  cases hl : t.lookup cwd path with
  | error e =>
    rw [hl] at h
    cases h
  | ok r =>
    obtain ⟨loc', node⟩ := r
    rw [hl] at h
    dsimp only [bind, Except.bind] at h
    obtain ⟨rfl, -⟩ := lookup_eq_ok hl
    split at h
    · cases h
      exact ⟨rfl, rfl⟩
    · cases h

/-- The entries of a validly named tree have valid names. -/
theorem validName_of_mem_childNames (ht : WellNamed t) {loc : Location} {n : String}
    (h : n ∈ t.childNames loc) : ValidName n := by
  simp only [childNames, List.mem_filterMap] at h
  obtain ⟨e, he, hsome⟩ := h
  split at hsome
  · exact ht e he n (List.mem_of_getLast? hsome)
  · cases hsome

end Operations

end FileTree

end ReleaseBuild
