import Mathlib.Data.String.Basic
import ReleaseBuild.Proofs.GlobListing
/-!
# Copying the files found in a directory

`Staging.copyCategory c D E` copies the files of one category found directly in the directory
text `D` into the directory `E`, and `Files.copyAll D E` every file found there. Both find the
files with a listing pattern (`GlobWalk.listingPattern`), keep the regular files, sort them as
paths and copy them one after the other into `E` under their own names, stopping at the first
copy that fails. This module gives the law of that step on a real tree.

* A copy whose source is a file at a place other than where the destination leads makes the
  destination hold the source's text and flag, and changes nothing else (`copy_eq_ok`).
* Copies one after the other either all succeed, returning the new paths, or stop at one name
  with exactly the names before it copied (`copyOutcome_mapM_copyFile`).
* The files found for a plain directory text are the regular files directly in the directory it
  names that the pattern's ending selects, in the order of their names
  (`run'_globFiles_listing`).
-/

set_option autoImplicit false

namespace ReleaseBuild

open GlobPattern GlobWalk

namespace FileTree

/-! ## Copying one file -/

/-- What copying names from the directory `d` into the directory `e` leaves: each copied name
holds in `e` what it held in `d`, and nothing else has changed. -/
structure CopiedInto (t t' : FileTree) (d e : Location) (names : List String) : Prop where
  copied : ∀ n ∈ names, t'.get? (e ++ [n]) = t.get? (d ++ [n])
  unchanged : ∀ z, (∀ n ∈ names, z ≠ e ++ [n]) → t'.get? z = t.get? z

theorem CopiedInto.nil (t : FileTree) (d e : Location) : CopiedInto t t d e [] :=
  ⟨fun _ h => absurd h List.not_mem_nil, fun _ _ => rfl⟩

/-- Copies made one after the other add up, the sources being in another directory than the
destinations. -/
theorem CopiedInto.append {t₁ t₂ t₃ : FileTree} {d e : Location} {A B : List String}
    (hde : d ≠ e) (h₁ : CopiedInto t₁ t₂ d e A) (h₂ : CopiedInto t₂ t₃ d e B) :
    CopiedInto t₁ t₃ d e (A ++ B) where
  copied n hn := by
    -- a source is never a destination, so the second copies leave the first sources alone
    have hsrc : ∀ n' ∈ A, d ++ [n] ≠ e ++ [n'] := fun n' _ h => hde (List.append_inj' h rfl).1
    by_cases hB : n ∈ B
    · rw [h₂.copied n hB, h₁.unchanged _ hsrc]
    · have hA : n ∈ A := (List.mem_append.1 hn).resolve_right hB
      have hdst : ∀ n' ∈ B, e ++ [n] ≠ e ++ [n'] := fun n' hn' h =>
        hB (List.singleton_inj.1 (List.append_cancel_left h) ▸ hn')
      rw [h₂.unchanged _ hdst, h₁.copied n hA]
  unchanged z hz := by
    rw [h₂.unchanged z fun n hn => hz n (List.mem_append_right A hn),
      h₁.unchanged z fun n hn => hz n (List.mem_append_left B hn)]

variable {t t' : FileTree} {cwd : Location}

/-- **One copy.** With the source a file at a place other than where the destination leads, a
copy that succeeds wrote where there was nothing or a file, and left the source's text and flag
there; nothing else changes. -/
theorem copy_eq_ok {src dst : String} {srcLoc : Location} {c : String} {x : Bool}
    (hsrc : t.lookup cwd src = .ok (srcLoc, .file c x)) (hne : srcLoc ≠ place cwd dst)
    (h : t.copy cwd src dst = .ok t') :
    t.get? (place cwd dst) ≠ some .directory ∧
      ∀ z, t'.get? z = if z = place cwd dst then some (.file c x) else t.get? z := by
  unfold copy at h
  rw [hsrc] at h
  dsimp only [bind, Except.bind] at h
  cases ho : t.openTruncate cwd dst x with
  | error e =>
    rw [ho] at h
    cases h
  | ok r =>
    obtain ⟨t₁, loc⟩ := r
    rw [ho] at h
    cases h
    obtain ⟨rfl, hloc, hbefore, y, rfl⟩ := openTruncate_eq_ok ho
    refine ⟨?_, fun z => ?_⟩
    · rcases hbefore with hnone | ⟨c', y', hfile⟩
      · rw [hnone]
        simp
      · rw [hfile]
        simp
    · -- the destination is opened empty, takes the source's flag, then the source's text
      have hsrcget : t.get? srcLoc = some (.file c x) := (lookup_eq_ok hsrc).2
      simp only [setExecutable, get?_put_self _ hloc, setContent, get?_put_of_ne _ hne, hsrcget]
      by_cases hz : z = place cwd dst
      · rw [if_pos hz, hz, get?_put_self _ hloc]
      · rw [if_neg hz, get?_put_of_ne _ hz, get?_put_of_ne _ hz, get?_put_of_ne _ hz]

/-- A walk goes through directories only, so a tree that keeps every directory keeps every
walk. -/
theorem walk_of_keeps (hkeep : ∀ z, t.get? z = some .directory → t'.get? z = some .directory)
    {dir d : Location} {cs : List String} (h : t.walk dir cs = .ok d) : t'.walk dir cs = .ok d := by
  induction cs generalizing dir with
  | nil => exact h
  | cons c cs ih =>
    unfold walk at h ⊢
    split at h
    · rename_i htriv
      rw [if_pos htriv]
      exact ih h
    · rename_i htriv
      rw [if_neg htriv]
      split at h
      · rename_i hup
        rw [if_pos hup]
        exact ih h
      · rename_i hup
        rw [if_neg hup]
        split at h
        · rename_i hdir
          rw [hkeep _ hdir]
          exact ih h
        · cases h
        · cases h

/-- A tree that keeps every directory keeps what each path names as a directory. -/
theorem lookup_of_keeps (hkeep : ∀ z, t.get? z = some .directory → t'.get? z = some .directory)
    {P : String} {d : Location} (h : t.lookup cwd P = .ok (d, .directory)) :
    t'.lookup cwd P = .ok (d, .directory) := by
  have hP := Files.ne_of_lookup_eq_ok h
  obtain ⟨hwalk, hdir⟩ := (lookup_eq_directory_iff hP).1 h
  exact (lookup_eq_directory_iff hP).2 ⟨walk_of_keeps hkeep hwalk, hkeep _ hdir⟩

/-! ## The files in a directory -/

/-- Whether the entry at a location is a regular file. -/
def isFileAt (t : FileTree) (loc : Location) : Bool :=
  match t.get? loc with
  | some (.file ..) => true
  | _ => false

/-- The names of the regular files directly in a directory, in the order of their names. -/
def fileNames (t : FileTree) (d : Location) : List String :=
  (sortNames (t.childNames d)).filter fun n => t.isFileAt (d ++ [n])

theorem isFileAt_iff {loc : Location} : t.isFileAt loc = true ↔ ∃ c x, t.get? loc = some (.file c x) := by
  unfold isFileAt
  rcases t.get? loc with _ | _ | ⟨c, x⟩ <;> simp

theorem mem_fileNames {d : Location} {n : String} :
    n ∈ t.fileNames d ↔ t.isFileAt (d ++ [n]) = true := by
  rw [fileNames, List.mem_filter, mem_sortNames, mem_childNames_iff]
  refine ⟨And.right, fun h => ⟨fun hnone => ?_, h⟩⟩
  simp [isFileAt, hnone] at h

/-- A name joined onto a path naming a directory names a file when the directory has a file of
that name. -/
theorem isFile?_join {B n : String} {d : Location} (hB : t.lookup cwd B = .ok (d, .directory))
    (hn : ValidName n) : t.isFile? cwd (Path.join B n) = t.isFileAt (d ++ [n]) := by
  unfold isFile? stat isFileAt
  rw [lookup_join hB hn]
  rcases t.get? (d ++ [n]) with _ | _ | _ <;> rfl

/-- A sorted listing is in the order of the names' characters. -/
theorem pairwise_sortNames (names : List String) :
    (sortNames names).Pairwise fun a b => a ≤ b :=
  (@List.pairwise_mergeSort String (fun a b => decide (a ≤ b))
    (fun a b c hab hbc => by simp only [decide_eq_true_eq] at *; exact le_trans hab hbc)
    (fun a b => by simpa using le_total a b) _).imp of_decide_eq_true

end FileTree

namespace PathComponent

@[simp] theorem compare_self (x : PathComponent) : x.compare x = .eq := by
  cases x <;> simp [PathComponent.compare]

end PathComponent

namespace Path

theorem compare_go_append (cs xs ys : List PathComponent) :
    compare.go (cs ++ xs) (cs ++ ys) = compare.go xs ys := by
  induction cs with
  | nil => rfl
  | cons c cs ih => simp [compare.go, ih]

end Path

namespace FileTree

/-- Names joined onto one path compare as the names. -/
theorem compare_join_join {B a b : String} (hB : B ≠ "") (ha : ValidName a) (hb : ValidName b) :
    Path.compare (Path.join B a) (Path.join B b) = compare a b := by
  unfold Path.compare
  rw [components_join hB ha.2.2.2, components_join hB hb.2.2.2, chunkComponents_name ha,
    chunkComponents_name hb, Path.compare_go_append]
  simp only [Path.compare.go, PathComponent.compare]
  cases compare a b <;> rfl

/-- Names in their order, joined onto one path, are already sorted as paths. -/
theorem sortPaths_map_join {B : String} (hB : B ≠ "") {l : List String}
    (hvalid : ∀ n ∈ l, ValidName n) (hsorted : l.Pairwise fun a b => a ≤ b) :
    Files.sortPaths (l.map (Path.join B)) = l.map (Path.join B) := by
  unfold Files.sortPaths
  apply List.mergeSort_of_pairwise
  rw [List.pairwise_map]
  refine hsorted.imp_of_mem fun ha hb hab => ?_
  rw [compare_join_join hB (hvalid _ ha) (hvalid _ hb)]
  simpa using compare_le_iff_le.2 hab

end FileTree

namespace Machine

/-- Reporting leaves the files and the working directory as they were. -/
@[simp] theorem emit_files (m : Machine) (e : Emission) : (m.emit e).files = m.files := rfl

@[simp] theorem emit_cwdLocation (m : Machine) (e : Emission) :
    (m.emit e).cwdLocation = m.cwdLocation := rfl

end Machine

namespace FailsOnly

variable {α β : Type} {P : Failure → Prop}

theorem mapM {l : List β} {f : β → ReleaseM α} (h : ∀ b ∈ l, FailsOnly (f b) P) :
    FailsOnly (l.mapM f) P := by
  induction l with
  | nil => exact pure []
  | cons b l ih =>
    rw [List.mapM_cons]
    exact (h b List.mem_cons_self).bind fun _ =>
      (ih fun b' hb' => h b' (List.mem_cons_of_mem _ hb')).bind fun _ => pure _

/-- A step on the file tree fails naming its action and its path. -/
theorem onFiles (action path : String)
    (step : FileTree → Location → Except IoError (α × FileTree)) :
    FailsOnly (ReleaseM.onFiles action path step) fun f => ∃ e, f = .filesystem action path e := by
  intro r m f hf
  rw [ReleaseM.run'_onFiles] at hf
  split at hf
  · cases hf
  · cases hf
    exact ⟨_, rfl⟩

end FailsOnly

namespace Files

open ReleaseM FileTree

variable {r : Runner} {m : Machine}

/-! ## Copying one name after the other -/

/-- Copying a path with a file name into a directory logs the path, then copies it to the name
joined onto the directory, failing as the copy fails. -/
theorem run'_copyFile_of_fileName {src E n : String} (hn : Path.fileName src = some n) :
    (copyFile src E).run' r m =
      match m.files.copy m.cwdLocation src (Path.join E n) with
      | .ok t' => (.ok (Path.join E n),
          { m.emit (.log ⟨.debug, .files, "   " ++ src⟩) with files := t' })
      | .error e =>
        (.error (.filesystem "copy" src e), m.emit (.log ⟨.debug, .files, "   " ++ src⟩)) := by
  simp only [copyFile, hn, copyTo, debug, run'_bind, run'_log, run'_onFiles, Machine.emit_files,
    Machine.emit_cwdLocation]
  cases m.files.copy m.cwdLocation src (Path.join E n) <;> rfl

/-- What copying the names `N` from the directory text `D`, naming the directory `d`, into the
directory text `E`, naming `e`, may end in: every name copied, with the new paths in order; or a
copy failure on a path naming one of them, with exactly the names before it copied. -/
def CopyOutcome (t : FileTree) (D E : String) (d e : Location) (N : List String) :
    Except Failure (List String) × FileTree → Prop
  | (.ok paths, t') => paths = N.map (Path.join E) ∧ CopiedInto t t' d e N
  | (.error f, t') => ∃ j, ∃ hj : j < N.length, ∃ p err, f = .filesystem "copy" p err ∧
      Path.sameAs p (Path.join D N[j]) = true ∧ CopiedInto t t' d e (N.take j)

/-- **Copying one name after the other.** Copying files named below a path that names the
directory `d` into a directory elsewhere either copies them all, returning their new paths, or
stops at the first copy that fails, with the names before it copied. -/
theorem copyOutcome_mapM_copyFile {B D E : String} {d : Location} (N : List String)
    (hB : m.files.lookup m.cwdLocation B = .ok (d, .directory))
    (hde : d ≠ place m.cwdLocation E)
    (hN : ∀ n ∈ N, ValidName n ∧ Path.sameAs (Path.join B n) (Path.join D n) = true ∧
      ∃ c x, m.files.get? (d ++ [n]) = some (.file c x)) :
    CopyOutcome m.files D E d (place m.cwdLocation E) N
      ((((N.map (Path.join B)).mapM fun src => copyFile src E).run' r m).1,
        (((N.map (Path.join B)).mapM fun src => copyFile src E).run' r m).2.files) := by
  -- the induction is on the names left, from the machine the copies so far have left
  induction N generalizing m with
  | nil => exact ⟨rfl, CopiedInto.nil _ _ _⟩
  | cons n N ih =>
    obtain ⟨hn, hsame, c, x, hget⟩ := hN n List.mem_cons_self
    have hlook : m.files.lookup m.cwdLocation (Path.join B n) = .ok (d ++ [n], .file c x) := by
      rw [lookup_join hB hn, hget]
    have hdst : place m.cwdLocation (Path.join E n) = place m.cwdLocation E ++ [n] :=
      place_join hn _ _
    have hne : d ++ [n] ≠ place m.cwdLocation (Path.join E n) := by
      rw [hdst]
      exact fun h => hde (List.append_inj' h rfl).1
    rw [List.map_cons, List.mapM_cons, run'_bind,
      run'_copyFile_of_fileName (fileName_join (ne_of_lookup_eq_ok hB) hn)]
    cases hcopy : m.files.copy m.cwdLocation (Path.join B n) (Path.join E n) with
    | error err =>
      -- the first copy fails, and nothing was copied
      exact ⟨0, by simp, Path.join B n, err, rfl, hsame, CopiedInto.nil _ _ _⟩
    | ok t₁ =>
      obtain ⟨hnotdir, hlaw⟩ := copy_eq_ok hlook hne hcopy
      rw [hdst] at hnotdir hlaw
      -- the copy wrote a file where no directory was, so every directory stays
      have hkeep : ∀ z, m.files.get? z = some .directory → t₁.get? z = some .directory := by
        intro z hz
        have hz' : z ≠ place m.cwdLocation E ++ [n] := fun h => hnotdir (h ▸ hz)
        rw [hlaw z, if_neg hz']
        exact hz
      have hstep : CopiedInto m.files t₁ d (place m.cwdLocation E) [n] := by
        refine ⟨fun n' hn' => ?_, fun z hz => ?_⟩
        · rw [List.mem_singleton.1 hn', hlaw, if_pos rfl, hget]
        · rw [hlaw, if_neg (hz n List.mem_cons_self)]
      -- the sources of the other names are untouched
      have hN' : ∀ n' ∈ N, ValidName n' ∧ Path.sameAs (Path.join B n') (Path.join D n') = true ∧
          ∃ c x, t₁.get? (d ++ [n']) = some (.file c x) := by
        intro n' hn'
        obtain ⟨hv, hs, c', x', hg⟩ := hN n' (List.mem_cons_of_mem _ hn')
        have hsrc : d ++ [n'] ≠ place m.cwdLocation E ++ [n] := fun h => hde (List.append_inj' h rfl).1
        refine ⟨hv, hs, c', x', ?_⟩
        rw [hlaw, if_neg hsrc, hg]
      have hrest := ih (m := { m.emit (.log ⟨.debug, .files, "   " ++ Path.join B n⟩) with
        files := t₁ }) (lookup_of_keeps hkeep hB) hde hN'
      dsimp only
      rw [run'_bind]
      rcases hrun : ((N.map (Path.join B)).mapM fun src => copyFile src E).run' r
        { m.emit (.log ⟨.debug, .files, "   " ++ Path.join B n⟩) with files := t₁ } with ⟨res, m₂⟩
      rw [hrun] at hrest
      cases res with
      | ok paths =>
        obtain ⟨hpaths, hcopied⟩ := hrest
        exact ⟨by rw [hpaths]; rfl, CopiedInto.append hde hstep hcopied⟩
      | error f =>
        -- the later copy that failed is one name further along
        obtain ⟨j, hj, p, err, hf, hp, hcopied⟩ := hrest
        exact ⟨j + 1, by simp [hj], p, err, hf, hp, CopiedInto.append hde hstep hcopied⟩

/-! ## The files a listing pattern finds -/

/-- **The files found.** For a listable directory text, the files a listing pattern finds are the
regular files directly in the directory the text names whose names the pattern's ending selects,
in the order of their names, each joined onto the text the walk built; and none when the text
names no directory. Finding them changes nothing. -/
theorem run'_globFiles_listing [PatternSearch] [PatternSearch.Listing] (ht : m.files.Valid)
    (hcwd : m.files.get? m.cwdLocation = some .directory) {D suffix : String} (hlist : Listable D)
    (hsuffix : '/' ∉ suffix.toList) :
    (globFiles (listingPattern D suffix)).run' r m =
      (.ok (match m.files.walkText m.cwdLocation D with
        | .ok d => ((sortNames (m.files.childNames d)).filter fun n =>
            suffix.toList.isSuffixOf n.toList && m.files.isFileAt (d ++ [n])).map
              (Path.join (listingBase D))
        | .error _ => []), m) := by
  simp only [globFiles, run'_bind, run'_get, PatternSearch.Listing.listing ht hcwd hlist hsuffix]
  cases hd : m.files.walkText m.cwdLocation D with
  | error e => simp only [List.filter_nil, sortPaths, List.mergeSort_nil, run'_pure]
  | ok d =>
    have hB : m.files.lookup m.cwdLocation (listingBase D) = .ok (d, .directory) :=
      lookup_of_walkText ht hcwd (listingBase_ne_empty hlist)
        (by rw [walkText_listingBase hlist, hd])
    have hvalid : ∀ n ∈ sortNames (m.files.childNames d), ValidName n := fun n hn =>
      validName_of_mem_childNames ht.named (mem_sortNames.1 hn)
    -- a found path is a file exactly when the directory holds a file of that name
    have hfiles : ((sortNames (m.files.childNames d)).filter fun n =>
          suffix.toList.isSuffixOf n.toList).filter
          (fun n => m.files.isFile? m.cwdLocation (Path.join (listingBase D) n)) =
        (sortNames (m.files.childNames d)).filter fun n =>
          suffix.toList.isSuffixOf n.toList && m.files.isFileAt (d ++ [n]) := by
      rw [List.filter_filter]
      refine List.filter_congr fun n hn => ?_
      rw [isFile?_join hB (hvalid n hn), Bool.and_comm]
    dsimp only
    rw [List.filter_map, show (m.files.isFile? m.cwdLocation ∘ Path.join (listingBase D)) =
      fun n => m.files.isFile? m.cwdLocation (Path.join (listingBase D) n) from rfl, hfiles,
      sortPaths_map_join (listingBase_ne_empty hlist)
        (fun n hn => hvalid n (List.mem_of_mem_filter hn))
        ((pairwise_sortNames _).filter _)]
    rfl

/-- **Copying what a listing pattern finds.** For a listable directory text that names no
directory, nothing is copied and nothing changes; for one that names the directory `d`, the
regular files directly in it whose names the pattern's ending selects and `skip` does not
reject are copied in the order of their names into a directory elsewhere. A failing copy names
its source as the path `B` does, for any `B` that reads as the text the walk built. -/
theorem run'_copyMatching_listing [PatternSearch] [PatternSearch.Listing] (ht : m.files.Valid)
    (hcwd : m.files.get? m.cwdLocation = some .directory) {D B E suffix : String}
    (hlist : Listable D)
    (hsame : ∀ n, '/' ∉ n.toList →
      Path.sameAs (Path.join (listingBase D) n) (Path.join B n) = true)
    (hsuffix : '/' ∉ suffix.toList) {skip : String → Bool}
    (hskip : ∀ p q, Path.fileName p = Path.fileName q → skip p = skip q) :
    match m.files.walkText m.cwdLocation D with
    | .error _ => (copyMatching (listingPattern D suffix) E skip).run' r m = (.ok [], m)
    | .ok d => d ≠ place m.cwdLocation E →
        CopyOutcome m.files B E d (place m.cwdLocation E)
          ((sortNames (m.files.childNames d)).filter fun n => suffix.toList.isSuffixOf n.toList &&
            m.files.isFileAt (d ++ [n]) && !skip (Path.join D n))
          (((copyMatching (listingPattern D suffix) E skip).run' r m).1,
            ((copyMatching (listingPattern D suffix) E skip).run' r m).2.files) := by
  unfold copyMatching
  rw [run'_bind, run'_globFiles_listing ht hcwd hlist hsuffix]
  cases hd : m.files.walkText m.cwdLocation D with
  | error e => rfl
  | ok d =>
    intro hde
    have hB : m.files.lookup m.cwdLocation (listingBase D) = .ok (d, .directory) :=
      lookup_of_walkText ht hcwd (listingBase_ne_empty hlist)
        (by rw [walkText_listingBase hlist, hd])
    have hvalid : ∀ n ∈ sortNames (m.files.childNames d), ValidName n := fun n hn =>
      validName_of_mem_childNames ht.named (mem_sortNames.1 hn)
    -- `skip` reads the file name, which the found path and the directory text's path share
    have hsel : (((sortNames (m.files.childNames d)).filter fun n =>
          suffix.toList.isSuffixOf n.toList && m.files.isFileAt (d ++ [n])).filter
          fun n => !skip (Path.join (listingBase D) n)) =
        (sortNames (m.files.childNames d)).filter fun n => suffix.toList.isSuffixOf n.toList &&
          m.files.isFileAt (d ++ [n]) && !skip (Path.join D n) := by
      rw [List.filter_filter]
      refine List.filter_congr fun n hn => ?_
      rw [hskip (Path.join (listingBase D) n) (Path.join D n)
        (by rw [fileName_join (listingBase_ne_empty hlist) (hvalid n hn),
          fileName_join hlist.ne_empty (hvalid n hn)]), Bool.and_comm]
    dsimp only
    rw [List.filter_map, show ((fun s => !skip s) ∘ Path.join (listingBase D)) =
      fun n => !skip (Path.join (listingBase D) n) from rfl, hsel]
    refine copyOutcome_mapM_copyFile _ hB hde fun n hn => ?_
    simp only [List.mem_filter, Bool.and_eq_true] at hn
    exact ⟨hvalid n hn.1, hsame n (hvalid n hn.1).2.2.2, isFileAt_iff.1 hn.2.1.2⟩

/-! ## Never failing on the pattern -/

/-- A copy into a directory fails only as a copy. -/
theorem failsOnly_copyFile (src E : String) :
    FailsOnly (copyFile src E) fun f => ∃ p err, f = .filesystem "copy" p err := by
  unfold copyFile
  split
  · exact FailsOnly.fail ⟨_, _, rfl⟩
  · refine FailsOnly.bind ?_ fun _ => FailsOnly.pure _
    unfold copyTo
    exact (FailsOnly.log _ _ _).bind fun _ =>
      (FailsOnly.onFiles _ _ _).mono fun f ⟨e, he⟩ => ⟨_, e, he⟩

/-- **A listing pattern is always read.** Copying what a listing pattern finds fails only as a
copy, never on the pattern, whatever the directory text and the tree. -/
theorem failsOnly_copyMatching_listing [PatternSearch] [PatternSearch.Listing] (D E : String)
    {suffix : String} (hsuffix : '/' ∉ suffix.toList) (skip : String → Bool) :
    FailsOnly (copyMatching (listingPattern D suffix) E skip)
      fun f => ∃ p err, f = .filesystem "copy" p err := by
  unfold copyMatching
  refine FailsOnly.bind ?_ fun _ => FailsOnly.mapM fun src _ => failsOnly_copyFile src E
  intro r m f hf
  obtain ⟨found, hfound⟩ := PatternSearch.Listing.read m.files m.cwdLocation D suffix hsuffix
  simp [globFiles, run'_bind, run'_get, hfound] at hf

/-! ## The law of copying what a directory holds -/

/-- The law of a run `out` that copies what a selection takes from the directory text `D` into
the directory text `E`, started from the machine `m`: whatever `D` is, every failure is a copy's;
a plain `D` that names no directory gives no paths and changes no file; and from a plain `D`
naming the directory `d` into a directory elsewhere, the names `select d` are copied one after
the other, all of them or up to the first copy that fails. -/
structure CopyLaw (m : Machine) (D E : String) (select : Location → List String)
    (out : Except Failure (List String) × Machine) : Prop where
  onlyCopy : ∀ f, out.1 = .error f → ∃ p err, f = .filesystem "copy" p err
  missing : Plain D → m.files.isDirectory? m.cwdLocation D = false →
    out.1 = .ok [] ∧ out.2.files = m.files
  copies : Plain D → ∀ d, m.files.lookup m.cwdLocation D = .ok (d, .directory) →
    d ≠ place m.cwdLocation E →
    CopyOutcome m.files D E d (place m.cwdLocation E) (select d) (out.1, out.2.files)

/-- In particular, a run under the law never fails on its pattern. -/
theorem CopyLaw.noPattern {m : Machine} {D E : String} {select : Location → List String}
    {out : Except Failure (List String) × Machine} (h : CopyLaw m D E select out) (p : String)
    (err : PatternError) : out.1 ≠ .error (.pattern p err) := fun he => by
  obtain ⟨_, _, hf⟩ := h.onlyCopy _ he
  cases hf

/-- Copying what a listing pattern finds, run from a machine with the files and the working
directory of `m`, follows the law with the names the pattern's ending selects and `skip` keeps. -/
theorem copyLaw_copyMatching [PatternSearch] [PatternSearch.Listing] {m m' : Machine}
    (hfiles : m'.files = m.files)
    (hcwdl : m'.cwdLocation = m.cwdLocation) (ht : m.files.Valid)
    (hcwd : m.files.get? m.cwdLocation = some .directory) {D E suffix : String}
    (hsuffix : '/' ∉ suffix.toList) {skip : String → Bool}
    (hskip : ∀ p q, Path.fileName p = Path.fileName q → skip p = skip q)
    {select : Location → List String}
    (hselect : D ≠ "" → ∀ d, select d = (sortNames (m.files.childNames d)).filter fun n =>
      suffix.toList.isSuffixOf n.toList && m.files.isFileAt (d ++ [n]) && !skip (Path.join D n)) :
    CopyLaw m D E select ((copyMatching (listingPattern D suffix) E skip).run' r m') := by
  have ht' : m'.files.Valid := hfiles ▸ ht
  have hcwd' : m'.files.get? m'.cwdLocation = some .directory := by rw [hfiles, hcwdl]; exact hcwd
  refine ⟨failsOnly_copyMatching_listing D E hsuffix skip r m', fun hplain hnd => ?_,
    fun hplain d hlook hde => ?_⟩
  · have hlaw := run'_copyMatching_listing (r := r) ht' hcwd' hplain.listable
      (fun n hn => sameAs_join_listingBase hplain hn) hsuffix hskip (E := E)
    rw [hfiles, hcwdl] at hlaw
    cases hw : m.files.walkText m.cwdLocation D with
    | ok d =>
      rw [(isDirectory?_iff_walkText ht hcwd hplain.1).2 ⟨d, hw⟩] at hnd
      cases hnd
    | error e =>
      rw [hw] at hlaw
      rw [hlaw]
      exact ⟨rfl, hfiles⟩
  · have hlaw := run'_copyMatching_listing (r := r) ht' hcwd' hplain.listable
      (fun n hn => sameAs_join_listingBase hplain hn) hsuffix hskip (E := E)
    have hw : m.files.walkText m.cwdLocation D = .ok d := ((lookup_eq_directory_iff hplain.1).1 hlook).1
    rw [hfiles, hcwdl, hw] at hlaw
    rw [hselect hplain.1 d]
    exact hlaw hde

theorem copyAll_eq [PatternSearch] (D E : String) :
    copyAll D E = copyMatching (listingPattern D "") E fun _ => false := by
  rw [copyAll, listingPattern, show "*" ++ escape "" = "*" by decide]

/-- Copying all files found in a directory follows the copy law with the names of all regular
files directly there. -/
theorem copyLaw_copyAll [PatternSearch] [PatternSearch.Listing] (r : Runner) (m : Machine)
    (ht : m.files.Valid)
    (hcwd : m.files.get? m.cwdLocation = some .directory) (D E : String) :
    CopyLaw m D E m.files.fileNames ((Files.copyAll D E).run' r m) := by
  rw [copyAll_eq]
  refine copyLaw_copyMatching rfl rfl ht hcwd (by decide) (fun _ _ _ => rfl) fun _ d => ?_
  rw [FileTree.fileNames]
  refine List.filter_congr fun n _ => ?_
  have hall : "".toList.isSuffixOf n.toList = true := List.isSuffixOf_iff_suffix.2 List.nil_suffix
  rw [hall]
  cases m.files.isFileAt (d ++ [n]) <;> rfl

end Files

namespace ArtifactCategory

/-- A category's pattern is the listing pattern of a dot and its extension. -/
theorem pattern_eq_listingPattern (c : ArtifactCategory) (dir : String) :
    c.pattern dir = listingPattern dir ("." ++ c.extension) := by
  rw [pattern, listingPattern]
  congr 1
  cases c <;> decide

/-- Whether a category takes a file of this name: the name ends in a dot and the category's
extension, and the name of a debug symbol does not end in `vc90.pdb`. -/
def takes (c : ArtifactCategory) (name : String) : Bool :=
  ("." ++ c.extension).toList.isSuffixOf name.toList &&
    !(c == .debugSymbol && "vc90.pdb".toList.isSuffixOf name.toList)

/-- The names a category's pattern selects and its exclusion keeps are those it takes. -/
theorem takes_eq (c : ArtifactCategory) {D n : String} (hD : D ≠ "") (hn : FileTree.ValidName n) :
    (("." ++ c.extension).toList.isSuffixOf n.toList && !c.excludes (Path.join D n)) =
      c.takes n := by
  cases c <;> simp [takes, excludes, FileTree.fileName_join hD hn, excludedSymbolSuffix]

theorem excludes_of_fileName (c : ArtifactCategory) {p q : String}
    (h : Path.fileName p = Path.fileName q) : c.excludes p = c.excludes q := by
  simp only [excludes, h]

/-- What a category's pattern selects in a directory of a real tree and its exclusion keeps are
the regular files there that the category takes. -/
theorem filter_takes_fileNames (c : ArtifactCategory) {t : FileTree} (ht : t.Valid) {D : String}
    (hD : D ≠ "") (d : Location) :
    (t.fileNames d).filter c.takes = (FileTree.sortNames (t.childNames d)).filter fun n =>
      ("." ++ c.extension).toList.isSuffixOf n.toList && t.isFileAt (d ++ [n]) &&
        !c.excludes (Path.join D n) := by
  rw [FileTree.fileNames, List.filter_filter]
  refine List.filter_congr fun n hn => ?_
  rw [← c.takes_eq hD (FileTree.validName_of_mem_childNames ht.named (FileTree.mem_sortNames.1 hn))]
  cases ("." ++ c.extension).toList.isSuffixOf n.toList <;> cases t.isFileAt (d ++ [n]) <;>
    cases c.excludes (Path.join D n) <;> rfl

end ArtifactCategory

namespace Staging

open ReleaseM

variable {r : Runner} {m : Machine}

/-- Copying a category reports a directory text that names no directory, then copies what the
category's pattern finds. -/
theorem run'_copyCategory [PatternSearch] (c : ArtifactCategory) (D E : String) :
    (copyCategory c D E).run' r m =
      (Files.copyMatching (c.pattern D) E c.excludes).run' r
        (if m.files.isDirectory? m.cwdLocation D then m
          else m.emit (.log ⟨.debug, .staging, "no " ++ c.extension ++ " output in " ++ D⟩)) := by
  unfold copyCategory
  cases hdir : m.files.isDirectory? m.cwdLocation D <;>
    simp [run'_bind, hdir, debug]

/-- Copying the files of a category follows the copy law with the regular files directly in the
directory that the category takes. -/
theorem copyLaw_copyCategory [PatternSearch] [PatternSearch.Listing] (r : Runner) (m : Machine)
    (ht : m.files.Valid) (hcwd : m.files.get? m.cwdLocation = some .directory)
    (c : ArtifactCategory) (D E : String) :
    Files.CopyLaw m D E (fun d => (m.files.fileNames d).filter c.takes)
      ((copyCategory c D E).run' r m) := by
  rw [run'_copyCategory, c.pattern_eq_listingPattern]
  have hsuffix : '/' ∉ ("." ++ c.extension).toList := by cases c <;> decide
  exact Files.copyLaw_copyMatching (by split <;> rfl) (by split <;> rfl) ht hcwd hsuffix
    (fun p q h => c.excludes_of_fileName h) fun hD d => c.filter_takes_fileNames ht hD d

/-- **Copying the files of a category, or all files, found in a directory.** On a real tree
whose working directory is a directory, copying the files of a category from the directory
text `D` into `E` follows the copy law with the names of the regular files directly in the
directory that the category takes, in the order of their names; copying all files follows it
with the names of all regular files directly there. -/
theorem copyCategory_copyAll_law [PatternSearch] [PatternSearch.Listing] (r : Runner) (m : Machine)
    (ht : m.files.Valid)
    (hcwd : m.files.get? m.cwdLocation = some .directory) (D E : String) :
    (∀ c, Files.CopyLaw m D E (fun d => (m.files.fileNames d).filter c.takes)
      ((copyCategory c D E).run' r m)) ∧
    Files.CopyLaw m D E m.files.fileNames ((Files.copyAll D E).run' r m) := by
  exact ⟨fun c => copyLaw_copyCategory r m ht hcwd c D E, Files.copyLaw_copyAll r m ht hcwd D E⟩

/-- A machine with a file at the top of the tree, directories to copy from and into, and a
directory standing where a copy's destination would go. -/
def copySample : Machine where
  files := ⟨[(["a.exe"], .file "top" false), (["dst1"], .directory), (["dst2"], .directory),
    (["fail"], .directory), (["fail", "b.exe"], .file "2" false), (["obj"], .directory),
    (["obj", "a.exe"], .file "A" false), (["obj", "b.exe"], .file "B" false),
    (["out"], .directory), (["out", "b.exe"], .directory), (["same"], .directory),
    (["same", "s.exe"], .file "S" false)]⟩

theorem copyCategory_copyAll_law_sample :
    copySample.files.Valid ∧ copySample.files.get? copySample.cwdLocation = some .directory ∧
      ((∀ c, Files.CopyLaw copySample "obj" "dst2"
          (fun d => (copySample.files.fileNames d).filter c.takes)
          ((copyCategory c "obj" "dst2").run' Runner.scripted copySample)) ∧
        Files.CopyLaw copySample "obj" "dst2" copySample.files.fileNames
          ((Files.copyAll "obj" "dst2").run' Runner.scripted copySample)) :=
  ⟨by decide, by decide,
    copyCategory_copyAll_law Runner.scripted copySample (by decide) (by decide) "obj" "dst2"⟩

/-- Outside plain directory texts and distinct directories the law fails: the empty text lists
the working directory, `.//obj` finds nothing, a copy onto the directory itself empties the
files, and below a leading `.` the failing path is reported without it. -/
theorem copyExecutables_quirks :
    ((copyExecutables "" "/dst1").run' Runner.scripted { copySample with cwd := "/same" }).1 =
        .ok ["/dst1/s.exe"] ∧
      ((copyExecutables ".//obj" "dst2").run' Runner.scripted copySample).1 = .ok [] ∧
      ((copyExecutables "same" "same").run' Runner.scripted copySample).2.files.get?
        ["same", "s.exe"] = some (.file "" false) ∧
      ((copyExecutables "./fail" "out").run' Runner.scripted copySample).1 =
        .error (.filesystem "copy" "fail/b.exe" .isADirectory) := by
  decide +kernel

end Staging

end ReleaseBuild
