import ReleaseBuild.Proofs.RealRuns
import ReleaseBuild.Proofs.WriteConfinement
/-!
# Staging the build output of one architecture

`Staging.stageArchitecture S bt a L` makes the directories `L.buildFiles a` and
`L.debugSymbols a`, then copies, for the Sensor and then the Utility project, the executables
and driver images found directly in the project's output directory into the first, and its debug
symbols, the compiler's own `vc90.pdb` left out, into the second.

The law (`stageArchitecture_law`) is read on locations: `placesOf` gives the output directories
and the two staging directories as places seen from the working directory, and `StageLaw` says
what a run does there. It is assembled from two relations between trees, `DirsMade` for the
directories made on the way and `FilledFrom` for entries filled from the outputs, each carried
through the run by `Relates`, and from what a successful copy leaves (`CopiedTaken`), composed
copy by copy and project by project.

The law needs the texts to name their places plainly: a script directory with an empty piece
after its leading `.`s lists nothing, and a `..` in it or in the build root lets the directories
made on the way reach other places (`stageArchitecture_quirks`).
-/

set_option autoImplicit false

namespace ReleaseBuild

variable {α β : Type}

open FileTree GlobPattern GlobWalk ReleaseM

namespace GlobWalk

theorem isAbsolute_name {n : String} (hn : '/' ∉ n.toList) : Path.isAbsolute n = false := by
  cases hcs : n.toList with
  | nil => simp [Path.isAbsolute, String.toList_eq_nil_iff.1 hcs]
  | cons c cs =>
    have hc : c ≠ '/' := fun hc => hn (by simp [hcs, hc])
    simp [Path.isAbsolute, hcs, Ne.symm hc]

/-- A joined name goes after the text, with a separator unless the text is empty or has one. -/
theorem toList_join {P n : String} (hn : '/' ∉ n.toList) :
    (Path.join P n).toList =
      P.toList ++ (if P.isEmpty || P.endsWith "/" then [] else ['/']) ++ n.toList := by
  unfold Path.join
  simp only [isAbsolute_name hn, Bool.false_eq_true, if_false]
  by_cases h : (P.isEmpty || P.endsWith "/") = true
  · rw [if_pos h, if_pos h]
    simp
  · rw [if_neg h, if_neg h]
    simp

/-- Joining a name onto a text keeps its root. -/
theorem rootLength_join {P n : String} (hn : '/' ∉ n.toList) :
    rootLength (Path.join P n) = rootLength P := by
  unfold rootLength
  congr 1
  rw [Bool.eq_iff_iff, startsWith_iff, startsWith_iff, toList_join hn,
    List.singleton_prefix_iff_head?_eq_some, List.singleton_prefix_iff_head?_eq_some]
  cases hP : P.toList with
  | nil =>
    have hempty : P.isEmpty = true := String.isEmpty_iff.2 (String.toList_inj.1 (by simpa using hP))
    cases hcs : n.toList with
    | nil => simp [hempty]
    | cons c cs =>
      have hc : c ≠ '/' := fun hc => hn (by simp [hcs, hc])
      simp [hempty, hc]
  | cons c cs => simp

theorem rootLength_le (P : String) : rootLength P ≤ P.toList.length := by
  unfold rootLength
  split
  · rename_i hstart
    obtain ⟨b, hb⟩ := (startsWith_iff P).1 hstart
    rw [← hb]
    simp
  · exact Nat.zero_le _

/-- A name after a separator is the last of a text's names. -/
theorem pieces_append_name (X : List Char) {n : String} (hn : ValidName n) :
    pieces (String.ofList (X ++ '/' :: n.toList)) = chunks (String.ofList X) ++ [n] := by
  have hchunks : chunks (String.ofList (X ++ '/' :: n.toList)) = chunks (String.ofList X) ++ [n] := by
    rw [chunks_of_toList_eq (A := X) (B := n.toList) (by simp), String.ofList_toList,
      chunks_of_not_mem hn.2.2.2]
  rw [pieces_of_getLast? (by rw [hchunks]; simpa using hn.1), hchunks]

/-- **Joining a name** adds it to the names after the root. -/
theorem dirPieces_join {P n : String} (hn : ValidName n) :
    dirPieces (Path.join P n) = dirPieces P ++ [n] := by
  obtain ⟨hsep, hname⟩ := body_shape P
  unfold dirPieces
  rw [rootLength_join hn.2.2.2, toList_join hn.2.2.2, List.append_assoc,
    List.drop_append_of_le_length (rootLength_le P)]
  cases hcond : (P.isEmpty || P.endsWith "/") with
  | true =>
    simp only [if_true, List.nil_append]
    rcases hsep hcond with hbody | ⟨B, hbody⟩ <;> rw [hbody]
    · -- nothing after the root: the name stands alone
      rw [List.nil_append, String.ofList_toList, pieces_of_getLast?
        (by rw [chunks_of_not_mem hn.2.2.2]; simpa using hn.1), chunks_of_not_mem hn.2.2.2]
      simp [pieces_empty]
    · rw [List.append_assoc, List.singleton_append, pieces_append_name B hn, pieces_append_sep]
  | false =>
    simp only [Bool.false_eq_true, if_false, List.singleton_append]
    obtain ⟨B, c, hbody, hc⟩ := hname hcond
    rw [hbody, pieces_append_name _ hn, pieces_of_not_sep hc]

theorem rootLength_joinAll {P : String} {names : List String} (hn : ∀ n ∈ names, ValidName n) :
    rootLength (Path.joinAll P names) = rootLength P := by
  induction names generalizing P with
  | nil => rfl
  | cons n names ih =>
    rw [Path.joinAll_cons, ih fun x hx => hn x (List.mem_cons_of_mem _ hx),
      rootLength_join (hn n List.mem_cons_self).2.2.2]

theorem dirPieces_joinAll {P : String} {names : List String} (hn : ∀ n ∈ names, ValidName n) :
    dirPieces (Path.joinAll P names) = dirPieces P ++ names := by
  induction names generalizing P with
  | nil => simp [Path.joinAll]
  | cons n names ih =>
    rw [Path.joinAll_cons, ih fun x hx => hn x (List.mem_cons_of_mem _ hx),
      dirPieces_join (hn n List.mem_cons_self)]
    simp

/-- A text below which names joined on are listable: absolute, or some `.` names followed by
nothing or by a name other than the empty one and `.`. So are `.`, `./s` and every plain text;
`.//s` is not. -/
def ListableBase (P : String) : Prop :=
  rootLength P ≠ 0 ∨ ∃ k rest, dirPieces P = List.replicate k "." ++ rest ∧
    ∀ c rest', rest = c :: rest' → c ≠ "" ∧ c ≠ "."

theorem Plain.listableBase {P : String} (hplain : Plain P) : ListableBase P := by
  by_cases hroot : rootLength P = 0
  · obtain ⟨c, rest, hpieces, hcempty, hcdot, -⟩ := relative_pieces hroot hplain
    exact Or.inr ⟨0, c :: rest, hpieces, fun c' rest' h => by
      cases h
      exact ⟨hcempty, hcdot⟩⟩
  · exact Or.inl hroot

/-- Valid names joined onto a listable base make a listable text. -/
theorem ListableBase.listable_joinAll {P : String} (hP : ListableBase P) {n : String}
    {names : List String} (hn : ∀ x ∈ n :: names, ValidName x) :
    Listable (Path.joinAll P (n :: names)) := by
  rcases hP with hroot | ⟨k, rest, hpieces, hrest⟩
  · exact Or.inl (by rwa [rootLength_joinAll hn])
  · right
    rw [dirPieces_joinAll hn, hpieces, List.append_assoc]
    cases rest with
    | nil => exact ⟨k, n, names, by simp, (hn n List.mem_cons_self).1, (hn n List.mem_cons_self).2.1⟩
    | cons c rest' =>
      obtain ⟨hc, hcdot⟩ := hrest c rest' rfl
      exact ⟨k, c, rest' ++ n :: names, by simp, hc, hcdot⟩

end GlobWalk

namespace FileTree

theorem Downward.join {P n : String} (hP : Downward P) (hn : ValidName n) :
    Downward (Path.join P n) := by
  obtain ⟨l, hjoin, hbase, -⟩ := join_chunks hn [] P
  intro hmem
  rw [hjoin, List.mem_append, List.mem_singleton] at hmem
  rcases hmem with hmem | hmem
  · rcases hbase with h | h <;> exact hP (by rw [h]; simp [hmem])
  · exact hn.2.2.1 hmem.symm

theorem Downward.joinAll {P : String} (hP : Downward P) {names : List String}
    (hn : ∀ n ∈ names, ValidName n) : Downward (Path.joinAll P names) := by
  induction names generalizing P with
  | nil => exact hP
  | cons n names ih =>
    rw [Path.joinAll_cons]
    exact ih (hP.join (hn n List.mem_cons_self)) fun x hx => hn x (List.mem_cons_of_mem _ hx)

end FileTree

/-! ## Where staging reads and writes -/

theorem Architecture.validName_outputNames (a : Architecture) (bt : BuildType) (p : Project) :
    ∀ x ∈ [p.dirName, "obj" ++ bt.tag ++ "_win7_" ++ a.objTag, a.cpuDir], ValidName x := by
  cases a <;> cases bt <;> cases p <;> decide

theorem BuildLayout.validName_artifactNames (c : ArtifactCategory) (a : Architecture) :
    ∀ x ∈ [c.subdir, a.tag], ValidName x := by
  simp [c.validName_subdir, a.validName_tag]

theorem Architecture.place_outputDir (cwd : Location) (S : String) (a : Architecture)
    (bt : BuildType) (p : Project) :
    place cwd (a.outputDir S bt p) =
      place cwd S ++ [p.dirName, "obj" ++ bt.tag ++ "_win7_" ++ a.objTag, a.cpuDir] :=
  place_joinAll (a.validName_outputNames bt p) cwd S

namespace Staging

/-- Where staging one architecture reads and writes, as locations: the output directory of each
project, and the directories of build files and of debug symbols, two siblings. -/
structure Places where
  source : Project → Location
  buildFiles : Location
  debugSymbols : Location
  source_ne_buildFiles : ∀ p, source p ≠ buildFiles
  source_ne_debugSymbols : ∀ p, source p ≠ debugSymbols
  buildFiles_ne_debugSymbols : buildFiles ≠ debugSymbols
  length_debugSymbols : debugSymbols.length = buildFiles.length

/-- The places of staging seen from the working directory `cwd`: the output directory
`S/<project>/obj<bt>_win7_<objTag>/<cpuDir>` of each project, and `build_files/<arch>` and
`debug_symbols/<arch>` in the build root. An output directory ends in `i386` or `amd64`, never
in an architecture's tag. -/
def placesOf (cwd : Location) (S : String) (bt : BuildType) (a : Architecture)
    (L : BuildLayout) : Places where
  source p := place cwd S ++ [p.dirName, "obj" ++ bt.tag ++ "_win7_" ++ a.objTag, a.cpuDir]
  buildFiles := place cwd L.root ++ ["build_files", a.tag]
  debugSymbols := place cwd L.root ++ ["debug_symbols", a.tag]
  source_ne_buildFiles p h := by
    have hlast := congrArg List.getLast? h
    cases a <;> simp [Architecture.cpuDir, Architecture.tag] at hlast
  source_ne_debugSymbols p h := by
    have hlast := congrArg List.getLast? h
    cases a <;> simp [Architecture.cpuDir, Architecture.tag] at hlast
  buildFiles_ne_debugSymbols h := by simp at h
  length_debugSymbols := by simp

/-- Whether staging copies a file of this name into the build-files directory: an executable or a
driver image. -/
def takesBuildFile (n : String) : Bool :=
  ArtifactCategory.executable.takes n || ArtifactCategory.driverImage.takes n

namespace Places

variable {P : Places}

/-- The location `z` is the entry `n` of a staging directory that takes the name: an executable
or a driver image in the build-files directory, a debug symbol in the debug-symbols one. -/
def Slot (P : Places) (z : Location) (n : String) : Prop :=
  (z = P.buildFiles ++ [n] ∧ takesBuildFile n = true) ∨
    (z = P.debugSymbols ++ [n] ∧ ArtifactCategory.debugSymbol.takes n = true)

theorem Slot.length {z : Location} {n : String} (h : P.Slot z n) :
    z.length = P.buildFiles.length + 1 := by
  rcases h with ⟨rfl, -⟩ | ⟨rfl, -⟩ <;> simp [P.length_debugSymbols]

theorem not_slot_source (p : Project) (n' n : String) : ¬P.Slot (P.source p ++ [n']) n := by
  rintro (⟨h, -⟩ | ⟨h, -⟩)
  · exact P.source_ne_buildFiles p (List.append_inj' h rfl).1
  · exact P.source_ne_debugSymbols p (List.append_inj' h rfl).1

/-! ### Filling the staging directories -/

/-- The tree `t'` is `t` with some entries of the staging directories filled: each location
holds what it held, or is the entry `n` of a staging directory that takes `n`, holding the
regular file of that name in some project's output directory. -/
def FilledFrom (P : Places) (t t' : FileTree) : Prop :=
  ∀ z, t'.get? z = t.get? z ∨ ∃ p n, P.Slot z n ∧ t.isFileAt (P.source p ++ [n]) = true ∧
    t'.get? z = t.get? (P.source p ++ [n])

variable {t t' t₁ t₂ t₃ : FileTree}

theorem FilledFrom.refl (t : FileTree) : P.FilledFrom t t := fun _ => Or.inl rfl

/-- Filling the staging directories leaves the entries of the output directories alone. -/
theorem FilledFrom.get?_source (h : P.FilledFrom t t') (p : Project) (n : String) :
    t'.get? (P.source p ++ [n]) = t.get? (P.source p ++ [n]) :=
  (h _).resolve_right fun ⟨_, _, hslot, _⟩ => P.not_slot_source p n _ hslot

theorem FilledFrom.isFileAt_source (h : P.FilledFrom t t') (p : Project) (n : String) :
    t'.isFileAt (P.source p ++ [n]) = t.isFileAt (P.source p ++ [n]) := by
  rw [isFileAt, isFileAt, h.get?_source]

/-- Filling changes nothing but entries of the staging directories. -/
theorem FilledFrom.get?_of_length (h : P.FilledFrom t t') {z : Location}
    (hz : z.length ≠ P.buildFiles.length + 1) : t'.get? z = t.get? z :=
  (h z).resolve_right fun ⟨_, _, hslot, _⟩ => hz hslot.length

theorem FilledFrom.trans (h₁ : P.FilledFrom t₁ t₂) (h₂ : P.FilledFrom t₂ t₃) :
    P.FilledFrom t₁ t₃ := by
  intro z
  rcases h₂ z with heq | ⟨p, n, hslot, hfile, hget⟩
  · rw [heq]
    exact h₁ z
  · -- what the second filling copied was in the output directory from the start
    refine Or.inr ⟨p, n, hslot, ?_, ?_⟩
    · rwa [← h₁.isFileAt_source]
    · rw [hget, h₁.get?_source]

/-- Copying names a staging directory takes from an output directory fills it. -/
theorem FilledFrom.of_copiedInto {p : Project} {dst : Location} {M : List String}
    (h : CopiedInto t t' (P.source p) dst M)
    (hM : ∀ n ∈ M, P.Slot (dst ++ [n]) n ∧ t.isFileAt (P.source p ++ [n]) = true) :
    P.FilledFrom t t' := by
  intro z
  by_cases hz : ∃ n ∈ M, z = dst ++ [n]
  · obtain ⟨n, hn, rfl⟩ := hz
    exact Or.inr ⟨p, n, (hM n hn).1, (hM n hn).2, h.copied n hn⟩
  · exact Or.inl (h.unchanged z fun n hn hzn => hz ⟨n, hn, hzn⟩)

/-! ### Making the staging directories -/

/-- The tree `t'` is `t` with directories made where nothing was, on the way to the staging
directories. -/
def DirsMade (P : Places) (t t' : FileTree) : Prop :=
  ∀ z, t'.get? z = t.get? z ∨
    ((z <+: P.buildFiles ∨ z <+: P.debugSymbols) ∧ t.get? z = none ∧ t'.get? z = some .directory)

theorem DirsMade.refl (t : FileTree) : P.DirsMade t t := fun _ => Or.inl rfl

theorem DirsMade.trans (h₁ : P.DirsMade t₁ t₂) (h₂ : P.DirsMade t₂ t₃) : P.DirsMade t₁ t₃ := by
  intro z
  rcases h₂ z with heq | ⟨hz, hnone, hdir⟩
  · rw [heq]
    exact h₁ z
  · -- a directory made second was missing before the first step too
    rcases h₁ z with heq₁ | ⟨-, -, hdir₁⟩
    · exact Or.inr ⟨hz, heq₁ ▸ hnone, hdir⟩
    · rw [hdir₁] at hnone
      cases hnone

/-- Directories made are no files. -/
theorem DirsMade.isFileAt (h : P.DirsMade t t') (z : Location) : t'.isFileAt z = t.isFileAt z := by
  unfold FileTree.isFileAt
  rcases h z with heq | ⟨-, hnone, hdir⟩
  · rw [heq]
  · rw [hnone, hdir]

theorem DirsMade.get?_of_isFileAt (h : P.DirsMade t t') {z : Location}
    (hz : t.isFileAt z = true) : t'.get? z = t.get? z := by
  rcases h z with heq | ⟨-, hnone, -⟩
  · exact heq
  · simp [FileTree.isFileAt, hnone] at hz

/-- Making directories leaves every directory one. -/
theorem DirsMade.get?_directory (h : P.DirsMade t t') {z : Location}
    (hz : t.get? z = some .directory) : t'.get? z = some .directory := by
  rcases h z with heq | ⟨-, hnone, -⟩
  · rw [heq, hz]
  · rw [hz] at hnone
    cases hnone

/-- Nothing one level below the staging directories lies on the way to them. -/
theorem DirsMade.get?_of_length (h : P.DirsMade t t') {z : Location}
    (hz : z.length = P.buildFiles.length + 1) : t'.get? z = t.get? z := by
  rcases h z with heq | ⟨hpre, -, -⟩
  · exact heq
  · exfalso
    rcases hpre with hpre | hpre
    · have := hpre.length_le
      omega
    · have := hpre.length_le
      rw [P.length_debugSymbols] at this
      omega

/-- What staging leaves at the name `n` of the staging directory `dst`, which takes the names
`takes`, from the tree `t`: the file of that name in the Utility output, else the one in the
Sensor output, else what was there. -/
def staged (P : Places) (t : FileTree) (takes : String → Bool) (dst : Location) (n : String) :
    Option Node :=
  if takes n && t.isFileAt (P.source .utility ++ [n]) then t.get? (P.source .utility ++ [n])
  else if takes n && t.isFileAt (P.source .sensor ++ [n]) then t.get? (P.source .sensor ++ [n])
  else t.get? (dst ++ [n])

/-- Making directories on the way changes nothing that staging reads. -/
theorem DirsMade.staged_eq (h : P.DirsMade t t') (takes : String → Bool) {dst : Location}
    (hdst : dst.length = P.buildFiles.length) (n : String) :
    P.staged t' takes dst n = P.staged t takes dst n := by
  have hold : t'.get? (dst ++ [n]) = t.get? (dst ++ [n]) := h.get?_of_length (by simp [hdst])
  unfold staged
  rw [h.isFileAt, h.isFileAt, hold]
  split
  · rename_i hu
    simp only [Bool.and_eq_true] at hu
    exact h.get?_of_isFileAt hu.2
  · split
    · rename_i hs
      simp only [Bool.and_eq_true] at hs
      exact h.get?_of_isFileAt hs.2
    · rfl

/-- **The frame of staging.** After directories made on the way and entries filled, a location
holds what it held, or is a new directory on the way to a staging directory, or an entry of one
holding the file of that name in some project's output. -/
theorem frame_of_dirsMade (h₁ : P.DirsMade t₁ t₂) (h₂ : P.FilledFrom t₂ t₃) (z : Location) :
    t₃.get? z = t₁.get? z ∨
      ((z <+: P.buildFiles ∨ z <+: P.debugSymbols) ∧ t₁.get? z = none ∧
        t₃.get? z = some .directory) ∨
      ∃ p n, P.Slot z n ∧ t₁.isFileAt (P.source p ++ [n]) = true ∧
        t₃.get? z = t₁.get? (P.source p ++ [n]) := by
  rcases h₂ z with heq | ⟨p, n, hslot, hfile, hget⟩
  · rw [heq]
    exact (h₁ z).imp_right Or.inl
  · rw [h₁.isFileAt] at hfile
    exact Or.inr (Or.inr ⟨p, n, hslot, hfile, by rw [hget, h₁.get?_of_isFileAt hfile]⟩)

end Places

end Staging

/-! ## One copy -/

theorem ReleaseM.run'_bind_eq_ok {x : ReleaseM α} {f : α → ReleaseM β} {r : Runner} {m : Machine}
    {b : β} (h : ((x >>= f).run' r m).1 = .ok b) :
    ∃ a, (x.run' r m).1 = .ok a ∧ (x >>= f).run' r m = (f a).run' r (x.run' r m).2 := by
  rw [run'_bind] at h ⊢
  rcases hx : x.run' r m with ⟨_ | a, m₁⟩ <;> rw [hx] at h
  · cases h
  · exact ⟨a, rfl, rfl⟩

/-- After copies into `e`, an entry of `e` holds the source's entry of that name when the name
was copied, and what it held otherwise. -/
theorem FileTree.CopiedInto.get?_append {t t' : FileTree} {d e : Location} {M : List String}
    (h : CopiedInto t t' d e M) (n : String) :
    t'.get? (e ++ [n]) = if n ∈ M then t.get? (d ++ [n]) else t.get? (e ++ [n]) := by
  split
  · exact h.copied n ‹_›
  · rename_i hn
    exact h.unchanged _ fun n' hn' heq =>
      hn (List.singleton_inj.1 (List.append_cancel_left heq) ▸ hn')

namespace Staging

variable {r : Runner}

/-- **One copy of staging.** From a real tree, copying the files of a category from a listable
directory text that only goes down into a directory elsewhere copies names the category takes,
of regular files directly in the directory the text names, keeping their text and flag; and
when it succeeds it has copied all of them. -/
theorem copyCategory_copies (m : Machine) (ht : m.files.Valid)
    (hcwd : m.files.get? m.cwdLocation = some .directory) (c : ArtifactCategory) {D E : String}
    (hlist : Listable D) (hdown : Downward D)
    (hne : place m.cwdLocation D ≠ place m.cwdLocation E) :
    ∃ M, CopiedInto m.files ((copyCategory c D E).run' r m).2.files (place m.cwdLocation D)
        (place m.cwdLocation E) M ∧
      (∀ n ∈ M, c.takes n = true ∧ m.files.isFileAt (place m.cwdLocation D ++ [n]) = true) ∧
      ∀ ps, ((copyCategory c D E).run' r m).1 = .ok ps → ∀ n, c.takes n = true →
        m.files.isFileAt (place m.cwdLocation D ++ [n]) = true → n ∈ M := by
  rw [run'_copyCategory, c.pattern_eq_listingPattern]
  -- reporting a missing directory changes neither the files nor the working directory
  generalize hm' : (if m.files.isDirectory? m.cwdLocation D then m else m.emit _) = m'
  have hfiles : m'.files = m.files := by
    rw [← hm']
    split <;> rfl
  have hcwdl : m'.cwdLocation = m.cwdLocation := by
    rw [← hm']
    split <;> rfl
  have hsuffix : '/' ∉ ("." ++ c.extension).toList := by cases c <;> decide
  have hlaw := Files.run'_copyMatching_listing (r := r) (m := m') (E := E) (hfiles ▸ ht)
    (by rw [hfiles, hcwdl]; exact hcwd) hlist (B := listingBase D) (fun _ _ => beq_self_eq_true _)
    hsuffix (fun p q h => c.excludes_of_fileName h)
  rw [hfiles, hcwdl] at hlaw
  -- the names the pattern selects and the exclusion keeps are the files the category takes
  have hsel : ∀ d n, n ∈ (sortNames (m.files.childNames d)).filter (fun n =>
      ("." ++ c.extension).toList.isSuffixOf n.toList && m.files.isFileAt (d ++ [n]) &&
        !c.excludes (Path.join D n)) ↔ c.takes n = true ∧ m.files.isFileAt (d ++ [n]) = true := by
    intro d n
    rw [← c.filter_takes_fileNames ht hlist.ne_empty d, List.mem_filter, mem_fileNames]
    exact and_comm
  cases hw : m.files.walkText m.cwdLocation D with
  | error e =>
    rw [hw] at hlaw
    rw [hlaw, hfiles]
    refine ⟨[], CopiedInto.nil _ _ _, fun n hn => absurd hn List.not_mem_nil,
      fun _ _ n _ hfile => absurd ?_ (show ¬∃ d, m.files.walkText m.cwdLocation D = .ok d by
        rintro ⟨d, hd⟩; rw [hw] at hd; cases hd)⟩
    -- a file in the directory the text names would make the walk reach it
    obtain ⟨c', x, hget⟩ := isFileAt_iff.1 hfile
    have hdir : m.files.get? (place m.cwdLocation D) = some .directory := by
      simpa using ht.get?_dropLast hget
    exact (isDirectory?_iff_walkText ht hcwd hlist.ne_empty).1
      (isDirectory?_eq_true.2 ⟨_, lookup_of_downward ht hlist.ne_empty hdown hdir⟩)
  | ok d =>
    rw [hw] at hlaw
    obtain ⟨rfl, -⟩ := lookup_eq_ok (lookup_of_walkText ht hcwd hlist.ne_empty hw)
    have hout := hlaw hne
    generalize (Files.copyMatching (listingPattern D ("." ++ c.extension)) E c.excludes).run' r m' = X at hout ⊢
    obtain ⟨res, m₂⟩ := X
    cases res with
    | ok ps =>
      obtain ⟨-, hcopied⟩ := hout
      exact ⟨_, hcopied, fun n hn => (hsel _ n).1 hn, fun _ _ n hc hf => (hsel _ n).2 ⟨hc, hf⟩⟩
    | error f =>
      obtain ⟨j, -, -, -, -, -, hcopied⟩ := hout
      exact ⟨_, hcopied, fun n hn => (hsel _ n).1 (List.mem_of_mem_take hn), fun _ h => by cases h⟩

/-! ### Copies that succeed -/

/-- The tree `t'` is `t` with the regular files directly in `d` whose names `takes` selects
copied into `e`, and nothing else changed. -/
def CopiedTaken (t t' : FileTree) (d e : Location) (takes : String → Bool) : Prop :=
  (∀ n, t'.get? (e ++ [n]) =
    if takes n && t.isFileAt (d ++ [n]) then t.get? (d ++ [n]) else t.get? (e ++ [n])) ∧
  ∀ z, (∀ n, z ≠ e ++ [n]) → t'.get? z = t.get? z

namespace CopiedTaken

variable {t₁ t₂ t₃ : FileTree} {d e e' : Location} {k₁ k₂ : String → Bool}

theorem get?_other (h : CopiedTaken t₁ t₂ d e k₁) (he : e' ≠ e) (n : String) :
    t₂.get? (e' ++ [n]) = t₁.get? (e' ++ [n]) :=
  h.2 _ fun _ heq => he (List.append_inj' heq rfl).1

theorem isFileAt_other (h : CopiedTaken t₁ t₂ d e k₁) (he : e' ≠ e) (n : String) :
    t₂.isFileAt (e' ++ [n]) = t₁.isFileAt (e' ++ [n]) := by
  rw [isFileAt, isFileAt, h.get?_other he]

/-- Two copies from one directory into another add up: a name either selects is copied. -/
theorem append (hde : d ≠ e) (h₁ : CopiedTaken t₁ t₂ d e k₁) (h₂ : CopiedTaken t₂ t₃ d e k₂) :
    CopiedTaken t₁ t₃ d e fun n => k₁ n || k₂ n := by
  refine ⟨fun n => ?_, fun z hz => by rw [h₂.2 z hz, h₁.2 z hz]⟩
  rw [h₂.1, h₁.isFileAt_other hde, h₁.get?_other hde, h₁.1]
  dsimp only
  by_cases hf : t₁.isFileAt (d ++ [n]) = true <;> by_cases hk₁ : k₁ n = true <;>
    by_cases hk₂ : k₂ n = true <;> simp [hf, hk₁, hk₂]

end CopiedTaken

/-- A copy of a category that succeeds copies every file it takes. -/
theorem copyCategory_taken (m : Machine) (ht : m.files.Valid)
    (hcwd : m.files.get? m.cwdLocation = some .directory) (c : ArtifactCategory) {D E : String}
    (hlist : Listable D) (hdown : Downward D)
    (hne : place m.cwdLocation D ≠ place m.cwdLocation E) {ps : List String}
    (hok : ((copyCategory c D E).run' r m).1 = .ok ps) :
    CopiedTaken m.files ((copyCategory c D E).run' r m).2.files (place m.cwdLocation D)
      (place m.cwdLocation E) c.takes := by
  obtain ⟨M, hcopied, hsound, hall⟩ := copyCategory_copies (r := r) m ht hcwd c hlist hdown hne
  refine ⟨fun n => ?_, fun z hz => hcopied.unchanged z fun n _ => hz n⟩
  rw [hcopied.get?_append]
  by_cases hn : n ∈ M
  · obtain ⟨htakes, hfile⟩ := hsound n hn
    rw [if_pos hn, if_pos (by simp [htakes, hfile])]
  · have hsel : (c.takes n && m.files.isFileAt (place m.cwdLocation D ++ [n])) = false := by
      cases htakes : c.takes n <;> cases hfile : m.files.isFileAt (place m.cwdLocation D ++ [n])
      all_goals first | rfl | exact absurd (hall ps hok n htakes hfile) hn
    rw [if_neg hn, hsel]
    rfl

/-! ### Filling, step by step -/

/-- Copying the files of a category from an output directory into a staging directory that takes
them fills it. -/
theorem fills_copyCategory (P : Places) (cwd : Location) (c : ArtifactCategory) {D E : String}
    {p : Project} (hlist : Listable D) (hdown : Downward D) (hsrc : place cwd D = P.source p)
    (hdst : place cwd E = P.buildFiles ∨ place cwd E = P.debugSymbols)
    (hslot : ∀ n, c.takes n = true → P.Slot (place cwd E ++ [n]) n) :
    Relates P.FilledFrom r cwd (copyCategory c D E) := by
  intro m hcwdl ht hcwd
  subst hcwdl
  have hne : place m.cwdLocation D ≠ place m.cwdLocation E := by
    rw [hsrc]
    rcases hdst with h | h <;> rw [h]
    · exact P.source_ne_buildFiles p
    · exact P.source_ne_debugSymbols p
  obtain ⟨M, hcopied, hM, -⟩ := copyCategory_copies (r := r) m ht hcwd c hlist hdown hne
  rw [hsrc] at hcopied hM
  exact Places.FilledFrom.of_copiedInto hcopied fun n hn => ⟨hslot n (hM n hn).1, (hM n hn).2⟩

/-- A copy that succeeds from a machine on a real tree, seen from its working directory `cwd`:
it copies what the category takes from the output directory, and keeps the working directory and
the tree real. -/
theorem copyCategory_step {cwd : Location} (m : Machine) (hloc : m.cwdLocation = cwd)
    (ht : m.files.Valid) (hcwd : m.files.get? cwd = some .directory) (c : ArtifactCategory)
    {D E : String} (hlist : Listable D) (hdown : Downward D) {src dst : Location}
    (hsrc : place cwd D = src) (hdst : place cwd E = dst) (hne : src ≠ dst) {ps : List String}
    (hok : ((copyCategory c D E).run' r m).1 = .ok ps) :
    CopiedTaken m.files ((copyCategory c D E).run' r m).2.files src dst c.takes ∧
      ((copyCategory c D E).run' r m).2.cwdLocation = cwd ∧
      ((copyCategory c D E).run' r m).2.files.Valid ∧
      ((copyCategory c D E).run' r m).2.files.get? cwd = some .directory := by
  subst hloc hsrc hdst
  obtain ⟨hc, ht', hd'⟩ := keepsReal_copyCategory (r := r) c D E m ht hcwd
  exact ⟨copyCategory_taken m ht hcwd c hlist hdown hne hok,
    by rw [Machine.cwdLocation, hc]; rfl, ht', hd'⟩

/-! ### One project -/

/-- The copies staging makes for one project, from its output directory `src`. -/
def copyProject (src buildFiles debugSymbols : String) : ReleaseM Unit := do
  let _ ← copyExecutables src buildFiles
  let _ ← copyDriverImages src buildFiles
  let _ ← copyDebugSymbols src debugSymbols
  pure ()

theorem keepsReal_copyProject (D BF DS : String) : KeepsReal r (copyProject D BF DS) := by
  unfold copyProject copyExecutables copyDriverImages copyDebugSymbols
  exact (keepsReal_copyCategory _ _ _).bind fun _ => (keepsReal_copyCategory _ _ _).bind fun _ =>
    (keepsReal_copyCategory _ _ _).bind fun _ => KeepsReal.pure _

section Project

variable (P : Places) {cwd : Location} {D BF DS : String} {p : Project}
  (hlist : Listable D) (hdown : Downward D) (hsrc : place cwd D = P.source p)
  (hbf : place cwd BF = P.buildFiles) (hds : place cwd DS = P.debugSymbols)
include hlist hdown hsrc hbf hds

theorem fills_copyProject : Relates P.FilledFrom r cwd (copyProject D BF DS) := by
  unfold copyProject copyExecutables copyDriverImages copyDebugSymbols
  have hrefl : ∀ t, P.FilledFrom t t := Places.FilledFrom.refl
  have htrans : ∀ t₁ t₂ t₃, P.FilledFrom t₁ t₂ → P.FilledFrom t₂ t₃ → P.FilledFrom t₁ t₃ :=
    fun _ _ _ => Places.FilledFrom.trans
  -- executables and driver images belong in the build-files directory
  have hbuild (c : ArtifactCategory) (hc : ∀ n, c.takes n = true → takesBuildFile n = true) :
      ∀ n, c.takes n = true → P.Slot (place cwd BF ++ [n]) n :=
    fun n h => Or.inl ⟨by rw [hbf], hc n h⟩
  have hsymbols : ∀ n, ArtifactCategory.debugSymbol.takes n = true →
      P.Slot (place cwd DS ++ [n]) n := fun n h => Or.inr ⟨by rw [hds], h⟩
  exact Relates.bind hrefl htrans (fills_copyCategory P cwd _ hlist hdown hsrc (Or.inl hbf)
    (hbuild .executable fun n h => by simp [takesBuildFile, h]))
    (keepsReal_copyCategory _ _ _) fun _ =>
    Relates.bind hrefl htrans (fills_copyCategory P cwd _ hlist hdown hsrc (Or.inl hbf)
      (hbuild .driverImage fun n h => by simp [takesBuildFile, h]))
    (keepsReal_copyCategory _ _ _) fun _ =>
    Relates.bind hrefl htrans (fills_copyCategory P cwd _ hlist hdown hsrc (Or.inr hds) hsymbols)
    (keepsReal_copyCategory _ _ _) fun _ => Relates.of_keeps hrefl fun _ => rfl

/-- **The copies of one project**, when they succeed: the build-files directory holds the
project's executables and driver images, the debug-symbols directory its debug symbols, each
under its own name, and their other entries are as they were. -/
theorem copyProject_ok (m : Machine) (hloc : m.cwdLocation = cwd) (ht : m.files.Valid)
    (hcwd : m.files.get? cwd = some .directory)
    (hok : ((copyProject D BF DS).run' r m).1 = .ok ()) (n : String) :
    ((copyProject D BF DS).run' r m).2.files.get? (P.buildFiles ++ [n]) =
      (if takesBuildFile n && m.files.isFileAt (P.source p ++ [n])
        then m.files.get? (P.source p ++ [n]) else m.files.get? (P.buildFiles ++ [n])) ∧
    ((copyProject D BF DS).run' r m).2.files.get? (P.debugSymbols ++ [n]) =
      (if ArtifactCategory.debugSymbol.takes n && m.files.isFileAt (P.source p ++ [n])
        then m.files.get? (P.source p ++ [n]) else m.files.get? (P.debugSymbols ++ [n])) := by
  unfold copyProject copyExecutables copyDriverImages copyDebugSymbols at hok ⊢
  -- the three copies succeed one after the other, each from the tree the one before left
  obtain ⟨ps₁, hok₁, hrun⟩ := ReleaseM.run'_bind_eq_ok hok
  rw [hrun] at hok ⊢
  obtain ⟨h₁, hloc₁, ht₁, hd₁⟩ := copyCategory_step m hloc ht hcwd .executable hlist hdown hsrc
    hbf (P.source_ne_buildFiles p) hok₁
  generalize (copyCategory .executable D BF).run' r m = o₁ at h₁ hloc₁ ht₁ hd₁ hok ⊢
  obtain ⟨ps₂, hok₂, hrun⟩ := ReleaseM.run'_bind_eq_ok hok
  rw [hrun] at hok ⊢
  obtain ⟨h₂, hloc₂, ht₂, hd₂⟩ := copyCategory_step o₁.2 hloc₁ ht₁ hd₁ .driverImage hlist hdown
    hsrc hbf (P.source_ne_buildFiles p) hok₂
  generalize (copyCategory .driverImage D BF).run' r o₁.2 = o₂ at h₂ hloc₂ ht₂ hd₂ hok ⊢
  obtain ⟨ps₃, hok₃, hrun⟩ := ReleaseM.run'_bind_eq_ok hok
  rw [hrun]
  obtain ⟨h₃, -, -, -⟩ := copyCategory_step o₂.2 hloc₂ ht₂ hd₂ .debugSymbol hlist hdown
    hsrc hds (P.source_ne_debugSymbols p) hok₃
  generalize (copyCategory .debugSymbol D DS).run' r o₂.2 = o₃ at h₃ ⊢
  have hbuild := (h₁.append (P.source_ne_buildFiles p) h₂).1 n
  refine ⟨?_, ?_⟩
  · rw [run'_pure, h₃.get?_other P.buildFiles_ne_debugSymbols, hbuild]
    rfl
  · rw [run'_pure, h₃.1, h₂.isFileAt_other (P.source_ne_buildFiles p),
      h₁.isFileAt_other (P.source_ne_buildFiles p), h₂.get?_other (P.source_ne_buildFiles p),
      h₁.get?_other (P.source_ne_buildFiles p), h₂.get?_other P.buildFiles_ne_debugSymbols.symm,
      h₁.get?_other P.buildFiles_ne_debugSymbols.symm]

end Project

/-! ### Both projects -/

/-- The copies of both projects, the Sensor first, as staging one architecture makes them. -/
def copyProjects (S : String) (bt : BuildType) (a : Architecture) (L : BuildLayout) :
    ReleaseM PUnit :=
  Project.all.forM fun p => copyProject (a.outputDir S bt p) (L.buildFiles a) (L.debugSymbols a)

theorem keepsReal_copyProjects (S : String) (bt : BuildType) (a : Architecture)
    (L : BuildLayout) : KeepsReal r (copyProjects S bt a L) :=
  KeepsReal.forM fun _ _ => keepsReal_copyProject _ _ _

section Projects

variable (P : Places) {cwd : Location} {S : String} {bt : BuildType} {a : Architecture}
  {L : BuildLayout} (hS : ListableBase S) (hSdown : Downward S)
  (hsrc : ∀ p, place cwd (a.outputDir S bt p) = P.source p)
  (hbf : place cwd (L.buildFiles a) = P.buildFiles)
  (hds : place cwd (L.debugSymbols a) = P.debugSymbols)
include hS hSdown hsrc hbf hds

theorem fills_copyProjects : Relates P.FilledFrom r cwd (copyProjects S bt a L) :=
  Relates.forM Places.FilledFrom.refl (fun _ _ _ => Places.FilledFrom.trans)
    (fun p _ => fills_copyProject P (hS.listable_joinAll (a.validName_outputNames bt p))
      (hSdown.joinAll (a.validName_outputNames bt p)) (hsrc p) hbf hds)
    fun _ _ => keepsReal_copyProject _ _ _

/-- **The copies of both projects**, when they succeed: an entry of a staging directory holds the
file of its name in the Utility output if the directory takes the name, else the one in the
Sensor output, else what it held. -/
theorem copyProjects_ok (m : Machine) (hloc : m.cwdLocation = cwd) (ht : m.files.Valid)
    (hcwd : m.files.get? cwd = some .directory)
    (hok : ((copyProjects S bt a L).run' r m).1 = .ok ⟨⟩) (n : String) :
    ((copyProjects S bt a L).run' r m).2.files.get? (P.buildFiles ++ [n]) =
        P.staged m.files takesBuildFile P.buildFiles n ∧
      ((copyProjects S bt a L).run' r m).2.files.get? (P.debugSymbols ++ [n]) =
        P.staged m.files ArtifactCategory.debugSymbol.takes P.debugSymbols n := by
  have hlist (p : Project) : Listable (a.outputDir S bt p) :=
    hS.listable_joinAll (a.validName_outputNames bt p)
  have hdown (p : Project) : Downward (a.outputDir S bt p) :=
    hSdown.joinAll (a.validName_outputNames bt p)
  unfold copyProjects at hok ⊢
  rw [Project.all, List.forM_eq_forM, List.forM_cons] at hok ⊢
  -- the Sensor copies run first, from the tree as it was
  obtain ⟨u, hok₁, hrun⟩ := ReleaseM.run'_bind_eq_ok hok
  rw [hrun] at hok ⊢
  have hfill := fills_copyProject P (hlist .sensor) (hdown .sensor) (hsrc .sensor) hbf hds
    (r := r) m hloc ht hcwd
  obtain ⟨hb₁, hd₁⟩ := copyProject_ok P (hlist .sensor) (hdown .sensor) (hsrc .sensor) hbf hds m
    hloc ht hcwd hok₁ n
  obtain ⟨hc₁, ht₁, hdir₁⟩ := keepsReal_copyProject (r := r) (a.outputDir S bt .sensor)
    (L.buildFiles a) (L.debugSymbols a) m ht (hloc ▸ hcwd)
  generalize (copyProject (a.outputDir S bt .sensor) (L.buildFiles a) (L.debugSymbols a)).run' r m
    = o₁ at hfill hb₁ hd₁ hc₁ ht₁ hdir₁ hok ⊢
  have hloc₁ : o₁.2.cwdLocation = cwd := by rw [Machine.cwdLocation, hc₁]; exact hloc
  -- then the Utility copies, over what the Sensor ones left
  rw [List.forM_cons] at hok ⊢
  obtain ⟨u₂, hok₂, hrun⟩ := ReleaseM.run'_bind_eq_ok hok
  rw [hrun, List.forM_nil, run'_pure]
  obtain ⟨hb₂, hd₂⟩ := copyProject_ok P (hlist .utility) (hdown .utility) (hsrc .utility) hbf hds
    o₁.2 hloc₁ ht₁ (hloc ▸ hdir₁) hok₂ n
  rw [hb₂, hd₂, hfill.isFileAt_source, hfill.get?_source, hb₁, hd₁]
  exact ⟨rfl, rfl⟩

end Projects

/-! ## Staging one architecture -/

/-- What staging does, from the tree `t` to the tree `t'` with the result `res`, to the places
`P`. -/
structure Places.StageLaw (P : Places) (t t' : FileTree) (res : Except Failure Unit) :
    Prop where
  /-- On every run, each location holds what it held, or is a new directory on the way to a
  staging directory, or an entry of one holding the regular file of its name in a project's
  output directory. -/
  frame : ∀ z, t'.get? z = t.get? z ∨
    ((z <+: P.buildFiles ∨ z <+: P.debugSymbols) ∧ t.get? z = none ∧
      t'.get? z = some .directory) ∨
    ∃ p n, P.Slot z n ∧ t.isFileAt (P.source p ++ [n]) = true ∧
      t'.get? z = t.get? (P.source p ++ [n])
  /-- On success the build-files directory is one, unless a regular file stood there. -/
  buildFiles : res = .ok () → t.isFileAt P.buildFiles = false →
    t'.get? P.buildFiles = some .directory
  /-- On success the debug-symbols directory is one, unless a regular file stood there. -/
  debugSymbols : res = .ok () → t.isFileAt P.debugSymbols = false →
    t'.get? P.debugSymbols = some .directory
  /-- On success each entry of a staging directory is the file of its name that the Utility
  output holds, if the directory takes the name, else the Sensor's, else what it held. -/
  staged : res = .ok () → ∀ n,
    t'.get? (P.buildFiles ++ [n]) = P.staged t takesBuildFile P.buildFiles n ∧
      t'.get? (P.debugSymbols ++ [n]) =
        P.staged t ArtifactCategory.debugSymbol.takes P.debugSymbols n

/-- Below a location that is neither on the way to a staging directory nor one of its entries,
staging changes nothing. -/
theorem Places.StageLaw.get?_under {P : Places} {t t' : FileTree} {res : Except Failure Unit}
    (h : P.StageLaw t t' res) {q z : Location} (hq : q <+: z)
    (hbf : ∀ n, ¬q <+: P.buildFiles ++ [n]) (hds : ∀ n, ¬q <+: P.debugSymbols ++ [n]) :
    t'.get? z = t.get? z := by
  rcases h.frame z with heq | ⟨hz, -, -⟩ | ⟨p, n, hslot, -, -⟩
  · exact heq
  · -- on the way to a staging directory is on the way to its entries
    exfalso
    rcases hz with hz | hz
    · exact hbf "" (hq.trans (hz.trans (List.prefix_append _ _)))
    · exact hds "" (hq.trans (hz.trans (List.prefix_append _ _)))
  · exfalso
    rcases hslot with ⟨rfl, -⟩ | ⟨rfl, -⟩
    · exact hbf n hq
    · exact hds n hq

/-- Staging one architecture makes its two directories, says so, and copies both projects. -/
theorem stageArchitecture_eq (S : String) (bt : BuildType) (a : Architecture) (L : BuildLayout) :
    stageArchitecture S bt a L = (do
      Files.ensureDir (L.buildFiles a)
      Files.ensureDir (L.debugSymbols a)
      info .building ("Copying " ++ a.label ++ " build files to " ++ L.buildFiles a)
      copyProjects S bt a L) := rfl

/-- Ensuring a staging directory whose text only goes down makes directories on the way to it. -/
theorem dirsMade_ensureDir (P : Places) (cwd : Location) {path : String} (hdown : Downward path)
    (hplace : place cwd path = P.buildFiles ∨ place cwd path = P.debugSymbols) :
    Relates P.DirsMade r cwd (Files.ensureDir path) := by
  intro m hloc ht hcwd z
  subst hloc
  rcases (Files.ensureDir_law r m hcwd hdown).1 z with h | ⟨hz, hnone, hdir⟩
  · exact Or.inl h
  · refine Or.inr ⟨?_, hnone, hdir⟩
    rcases hplace with h | h
    · exact Or.inl (h ▸ hz)
    · exact Or.inr (h ▸ hz)

section Stage

variable (P : Places) {cwd : Location} {S : String} {bt : BuildType} {a : Architecture}
  {L : BuildLayout} (hS : ListableBase S) (hSdown : Downward S) (hroot : Downward L.root)
  (hsrc : ∀ p, place cwd (a.outputDir S bt p) = P.source p)
  (hbf : place cwd (L.buildFiles a) = P.buildFiles)
  (hds : place cwd (L.debugSymbols a) = P.debugSymbols)
include hS hSdown hroot hsrc hbf hds

/-- On every run, staging makes directories on the way to the staging directories, then fills
entries of them. -/
theorem stages_stageArchitecture :
    Relates (Relation.Comp P.DirsMade P.FilledFrom) r cwd (stageArchitecture S bt a L) := by
  have hbfdown : Downward (L.buildFiles a) :=
    hroot.joinAll (BuildLayout.validName_artifactNames .executable a)
  have hdsdown : Downward (L.debugSymbols a) :=
    hroot.joinAll (BuildLayout.validName_artifactNames .debugSymbol a)
  have hfill : Relates P.FilledFrom r cwd
      (info .building ("Copying " ++ a.label ++ " build files to " ++ L.buildFiles a) >>=
        fun _ => copyProjects S bt a L) :=
    Relates.bind Places.FilledFrom.refl (fun _ _ _ => Places.FilledFrom.trans)
      (Relates.of_keeps Places.FilledFrom.refl fun _ => rfl) (KeepsReal.log _ _ _) fun _ =>
      fills_copyProjects P hS hSdown hsrc hbf hds
  rw [stageArchitecture_eq]
  refine (Relates.bind_comp ?_ (dirsMade_ensureDir P cwd hbfdown (Or.inl hbf))
    (Files.keepsReal_ensureDir _) fun _ =>
      Relates.bind_comp Places.FilledFrom.refl (dirsMade_ensureDir P cwd hdsdown (Or.inr hds))
        (Files.keepsReal_ensureDir _) fun _ => hfill).mono ?_
  · exact fun t => ⟨t, Places.DirsMade.refl t, Places.FilledFrom.refl t⟩
  · -- the directories made by the two steps together are made on the way
    rintro t t' ⟨t₁, h₁, t₂, h₂, h₃⟩
    exact ⟨t₂, h₁.trans h₂, h₃⟩

/-- **Staging that succeeds.** The staging directories are directories, unless a file stood
there, and each entry of them is what staging puts there, from the tree as it was. -/
theorem stageArchitecture_ok (m : Machine) (hloc : m.cwdLocation = cwd) (ht : m.files.Valid)
    (hcwd : m.files.get? cwd = some .directory)
    (hok : ((stageArchitecture S bt a L).run' r m).1 = .ok ()) :
    (m.files.isFileAt P.buildFiles = false →
      ((stageArchitecture S bt a L).run' r m).2.files.get? P.buildFiles = some .directory) ∧
    (m.files.isFileAt P.debugSymbols = false →
      ((stageArchitecture S bt a L).run' r m).2.files.get? P.debugSymbols = some .directory) ∧
    ∀ n, ((stageArchitecture S bt a L).run' r m).2.files.get? (P.buildFiles ++ [n]) =
        P.staged m.files takesBuildFile P.buildFiles n ∧
      ((stageArchitecture S bt a L).run' r m).2.files.get? (P.debugSymbols ++ [n]) =
        P.staged m.files ArtifactCategory.debugSymbol.takes P.debugSymbols n := by
  have hbfdown : Downward (L.buildFiles a) :=
    hroot.joinAll (BuildLayout.validName_artifactNames .executable a)
  have hdsdown : Downward (L.debugSymbols a) :=
    hroot.joinAll (BuildLayout.validName_artifactNames .debugSymbol a)
  rw [stageArchitecture_eq] at hok ⊢
  -- the build-files directory is ensured first
  obtain ⟨u₁, hok₁, hrun⟩ := ReleaseM.run'_bind_eq_ok hok
  rw [hrun] at hok ⊢
  have hmade₁ := dirsMade_ensureDir P cwd hbfdown (Or.inl hbf) (r := r) m hloc ht hcwd
  have hdir₁ := (Files.ensureDir_law r m (hloc ▸ hcwd) hbfdown).2 hok₁
  obtain ⟨hc₁, ht₁, hd₁⟩ := Files.keepsReal_ensureDir (r := r) (L.buildFiles a) m ht (hloc ▸ hcwd)
  rw [hloc, hbf] at hdir₁
  rw [hloc] at hd₁
  generalize (Files.ensureDir (L.buildFiles a)).run' r m = o₁ at hmade₁ hdir₁ hc₁ ht₁ hd₁ hok ⊢
  have hloc₁ : o₁.2.cwdLocation = cwd := by rw [Machine.cwdLocation, hc₁]; exact hloc
  -- then the debug-symbols directory
  obtain ⟨u₂, hok₂, hrun⟩ := ReleaseM.run'_bind_eq_ok hok
  rw [hrun] at hok ⊢
  have hmade₂ := dirsMade_ensureDir P cwd hdsdown (Or.inr hds) (r := r) o₁.2 hloc₁ ht₁ hd₁
  have hdir₂ := (Files.ensureDir_law r o₁.2 (hloc₁ ▸ hd₁) hdsdown).2 hok₂
  obtain ⟨hc₂, ht₂, hd₂⟩ := Files.keepsReal_ensureDir (r := r) (L.debugSymbols a) o₁.2 ht₁
    (hloc₁ ▸ hd₁)
  rw [hloc₁, hds] at hdir₂
  rw [hloc₁] at hd₂
  generalize (Files.ensureDir (L.debugSymbols a)).run' r o₁.2 = o₂ at hmade₂ hdir₂ hc₂ ht₂ hd₂ hok ⊢
  have hloc₂ : o₂.2.cwdLocation = cwd := by rw [Machine.cwdLocation, hc₂]; exact hloc₁
  -- the message changes no file, and the copies run from the tree with both directories made
  obtain ⟨u₃, -, hrun⟩ := ReleaseM.run'_bind_eq_ok hok
  rw [hrun, info, run'_log] at hok ⊢
  generalize hm₃ : o₂.2.emit (.log ⟨.info, .building,
    "Copying " ++ a.label ++ " build files to " ++ L.buildFiles a⟩) = m₃ at hok ⊢
  have hf₃ : m₃.files = o₂.2.files := by rw [← hm₃, Machine.emit_files]
  have hloc₃ : m₃.cwdLocation = cwd := by rw [← hm₃, Machine.emit_cwdLocation, hloc₂]
  have hfill := fills_copyProjects P hS hSdown hsrc hbf hds (r := r) m₃ hloc₃ (hf₃ ▸ ht₂)
    (hf₃ ▸ hd₂)
  have hcopied := copyProjects_ok P hS hSdown hsrc hbf hds m₃ hloc₃ (hf₃ ▸ ht₂) (hf₃ ▸ hd₂) hok
  rw [hf₃] at hfill hcopied
  have hmade := hmade₁.trans hmade₂
  refine ⟨fun hfile => ?_, fun hfile => ?_, fun n => ⟨?_, ?_⟩⟩
  · rw [hfill.get?_of_length (by omega)]
    exact hmade₂.get?_directory (hdir₁ hfile)
  · rw [hfill.get?_of_length (by rw [P.length_debugSymbols]; omega)]
    exact hdir₂ (by rw [hmade₁.isFileAt]; exact hfile)
  · rw [(hcopied n).1, hmade.staged_eq _ rfl]
  · rw [(hcopied n).2, hmade.staged_eq _ P.length_debugSymbols]

theorem stageLaw (m : Machine) (hloc : m.cwdLocation = cwd) (ht : m.files.Valid)
    (hcwd : m.files.get? cwd = some .directory) :
    P.StageLaw m.files ((stageArchitecture S bt a L).run' r m).2.files
      ((stageArchitecture S bt a L).run' r m).1 := by
  obtain ⟨t₂, hmade, hfill⟩ :=
    stages_stageArchitecture P hS hSdown hroot hsrc hbf hds (r := r) m hloc ht hcwd
  exact ⟨fun z => Places.frame_of_dirsMade hmade hfill z,
    fun hok => (stageArchitecture_ok P hS hSdown hroot hsrc hbf hds m hloc ht hcwd hok).1,
    fun hok => (stageArchitecture_ok P hS hSdown hroot hsrc hbf hds m hloc ht hcwd hok).2.1,
    fun hok => (stageArchitecture_ok P hS hSdown hroot hsrc hbf hds m hloc ht hcwd hok).2.2⟩

end Stage

/-! ### Where staging does not reach -/

section Away

variable {cwd : Location} {S : String} {bt : BuildType} {a : Architecture} {L : BuildLayout}

/-- The staging directories of another architecture lie beside those of this one. -/
theorem not_prefix_other {a' : Architecture} (ha : a' ≠ a) (c : ArtifactCategory) (x n : String) :
    ¬place cwd L.root ++ [c.subdir, a'.tag] <+: place cwd L.root ++ [x, a.tag] ++ [n] := by
  rw [List.append_assoc, List.prefix_append_right_inj]
  simp only [List.cons_append, List.nil_append, List.cons_prefix_cons, not_and]
  intro _ htag _
  exact ha (by cases a <;> cases a' <;> simp_all [Architecture.tag])

/-- An output directory under a staging directory or one of its entries is under the build root:
it ends in its object and processor directories, which no name there matches. -/
theorem source_prefix_root {x : String} (hx : x = "build_files" ∨ x = "debug_symbols")
    (p : Project) (n : String)
    (h : (placesOf cwd S bt a L).source p <+: place cwd L.root ++ [x, a.tag] ++ [n]) :
    (placesOf cwd S bt a L).source p <+: place cwd L.root := by
  have hcpu : x ≠ a.cpuDir ∧ a.tag ≠ a.cpuDir := by
    rcases hx with rfl | rfl <;> cases a <;> decide
  have hobj : "obj" ++ bt.tag ++ "_win7_" ++ a.objTag ≠ a.tag := by
    cases a <;> cases bt <;> decide
  simp only [placesOf] at h ⊢
  rcases List.prefix_concat_iff.1 h with h | h
  · -- an entry: the object directory would be the architecture's tag
    rw [List.append_assoc] at h
    have := (List.append_inj' h rfl).2
    simp only [List.cons_append, List.nil_append, List.cons.injEq] at this
    exact absurd this.2.1 hobj
  rw [show place cwd L.root ++ [x, a.tag] = place cwd L.root ++ [x] ++ [a.tag] by simp] at h
  rcases List.prefix_concat_iff.1 h with h | h
  · -- the staging directory: the processor directory would be the tag
    have := congrArg List.getLast? h
    simp only [List.getLast?_append, List.getLast?_cons_cons, List.getLast?_singleton,
      Option.some_or, Option.some.injEq] at this
    exact absurd this.symm hcpu.2
  rcases List.prefix_concat_iff.1 h with h | h
  · -- the category's directory: the processor directory would be its name
    have := congrArg List.getLast? h
    simp only [List.getLast?_append, List.getLast?_cons_cons, List.getLast?_singleton,
      Option.some_or, Option.some.injEq] at this
    exact absurd this.symm hcpu.1
  · exact h

end Away

/-- **Staging one architecture.** From a real tree, with the script directory written as a text
that only goes down and names no empty piece after its leading `.`s, and the build root as one
that only goes down, staging the architecture `a` obeys its law at the places of `placesOf`,
which are those of the output directories and of the layout's artifact directories. It leaves
alone everything under the other architecture's artifact directories, and under every output
directory that does not lie on the way to the build root. -/
theorem stageArchitecture_law (r : Runner) (m : Machine) (ht : m.files.Valid)
    (hcwd : m.files.get? m.cwdLocation = some .directory) {S : String} (hS : ListableBase S)
    (hSdown : Downward S) (bt : BuildType) (a : Architecture) {L : BuildLayout}
    (hroot : Downward L.root) :
    let P := placesOf m.cwdLocation S bt a L
    let o := (stageArchitecture S bt a L).run' r m
    P.StageLaw m.files o.2.files o.1 ∧
      (∀ p, P.source p = place m.cwdLocation (a.outputDir S bt p)) ∧
      P.buildFiles = place m.cwdLocation (L.buildFiles a) ∧
      P.debugSymbols = place m.cwdLocation (L.debugSymbols a) ∧
      L.buildFiles a = L.artifactDir .executable a ∧
      L.buildFiles a = L.artifactDir .driverImage a ∧
      L.debugSymbols a = L.artifactDir .debugSymbol a ∧
      (∀ a', a' ≠ a → ∀ c z, place m.cwdLocation (L.artifactDir c a') <+: z →
        o.2.files.get? z = m.files.get? z) ∧
      (∀ p z, ¬P.source p <+: place m.cwdLocation L.root → P.source p <+: z →
        o.2.files.get? z = m.files.get? z) := by
  intro P o
  have hsrc (p : Project) : place m.cwdLocation (a.outputDir S bt p) = P.source p :=
    a.place_outputDir _ S bt p
  have hbf : place m.cwdLocation (L.buildFiles a) = P.buildFiles :=
    L.place_artifactDir _ .executable a
  have hds : place m.cwdLocation (L.debugSymbols a) = P.debugSymbols :=
    L.place_artifactDir _ .debugSymbol a
  have hlaw := stageLaw P hS hSdown hroot hsrc hbf hds (r := r) m rfl ht hcwd
  refine ⟨hlaw, fun p => (hsrc p).symm, hbf.symm, hds.symm, rfl, rfl, rfl, ?_, ?_⟩
  · -- the other architecture's directories differ from this one's in their tag
    intro a' ha c z hz
    rw [L.place_artifactDir] at hz
    exact hlaw.get?_under hz (fun n => not_prefix_other ha c _ n)
      fun n => not_prefix_other ha c _ n
  · intro p z hp hz
    exact hlaw.get?_under hz (fun n h => hp (source_prefix_root (Or.inl rfl) p n h))
      fun n h => hp (source_prefix_root (Or.inr rfl) p n h)

/-- A machine with the output of both projects for the 32-bit free build: a driver image, debug
symbols and the compiler's own, and an executable, with a driver image of the same name in
each. -/
def stageSample : Machine where
  files := ⟨[(["s"], .directory), (["s", "hone"], .directory),
    (["s", "hone", "objfre_win7_x86"], .directory),
    (["s", "hone", "objfre_win7_x86", "i386"], .directory),
    (["s", "hone", "objfre_win7_x86", "i386", "hone.pdb"], .file "sym" false),
    (["s", "hone", "objfre_win7_x86", "i386", "hone.sys"], .file "drv" false),
    (["s", "hone", "objfre_win7_x86", "i386", "vc90.pdb"], .file "vc" false),
    (["s", "honeutil"], .directory), (["s", "honeutil", "objfre_win7_x86"], .directory),
    (["s", "honeutil", "objfre_win7_x86", "i386"], .directory),
    (["s", "honeutil", "objfre_win7_x86", "i386", "hone.sys"], .file "util drv" false),
    (["s", "honeutil", "objfre_win7_x86", "i386", "honeutil.exe"], .file "util" true)]⟩

theorem stageArchitecture_law_sample :
    stageSample.files.Valid ∧ stageSample.files.get? stageSample.cwdLocation = some .directory ∧
      ListableBase "s" ∧ Downward "s" ∧ Downward "root" ∧
      let P := placesOf stageSample.cwdLocation "s" .free .x86 ⟨"root"⟩
      let o := (stageArchitecture "s" .free .x86 ⟨"root"⟩).run' Runner.scripted stageSample
      P.StageLaw stageSample.files o.2.files o.1 ∧
        (∀ p, P.source p = place stageSample.cwdLocation (Architecture.x86.outputDir "s" .free p)) ∧
        P.buildFiles = place stageSample.cwdLocation (BuildLayout.buildFiles ⟨"root"⟩ .x86) ∧
        P.debugSymbols = place stageSample.cwdLocation (BuildLayout.debugSymbols ⟨"root"⟩ .x86) ∧
        BuildLayout.buildFiles ⟨"root"⟩ .x86 = BuildLayout.artifactDir ⟨"root"⟩ .executable .x86 ∧
        BuildLayout.buildFiles ⟨"root"⟩ .x86 = BuildLayout.artifactDir ⟨"root"⟩ .driverImage .x86 ∧
        BuildLayout.debugSymbols ⟨"root"⟩ .x86 =
          BuildLayout.artifactDir ⟨"root"⟩ .debugSymbol .x86 ∧
        (∀ a', a' ≠ .x86 → ∀ c z,
          place stageSample.cwdLocation (BuildLayout.artifactDir ⟨"root"⟩ c a') <+: z →
            o.2.files.get? z = stageSample.files.get? z) ∧
        (∀ p z, ¬P.source p <+: place stageSample.cwdLocation "root" → P.source p <+: z →
          o.2.files.get? z = stageSample.files.get? z) :=
  have hplain : Plain "s" := ⟨by decide, by decide⟩
  ⟨by decide, by decide, hplain.listableBase, by decide, by decide,
    stageArchitecture_law Runner.scripted stageSample (by decide) (by decide)
      hplain.listableBase (by decide) .free .x86 (L := ⟨"root"⟩) (by decide)⟩

/-- A machine with one driver image in the Sensor output of the 32-bit free build. -/
def stageQuirkSample : Machine where
  files := ⟨[(["s"], .directory), (["s", "hone"], .directory),
    (["s", "hone", "objfre_win7_x86"], .directory),
    (["s", "hone", "objfre_win7_x86", "i386"], .directory),
    (["s", "hone", "objfre_win7_x86", "i386", "hone.sys"], .file "drv" false)]⟩

/-- Outside those texts and places the law fails: below `.//s` staging finds no output, below
`x/../s` it copies from an output directory that the text did not name at the start, a build
root through `x64/../..` makes the other architecture's directory, a regular file standing where
the build-files directory belongs is accepted as it is, and a build root inside an output
directory stages into it. -/
theorem stageArchitecture_quirks :
    ((stageArchitecture ".//s" .free .x86 ⟨"root"⟩).run' Runner.scripted stageQuirkSample).1 =
        .ok () ∧
      ((stageArchitecture ".//s" .free .x86 ⟨"root"⟩).run' Runner.scripted
        stageQuirkSample).2.files.get? ["root", "build_files", "x86", "hone.sys"] = none ∧
      ((stageArchitecture "x/../s" .free .x86 ⟨"x/../root"⟩).run' Runner.scripted
        stageQuirkSample).2.files.get? ["root", "build_files", "x86", "hone.sys"] =
        some (.file "drv" false) ∧
      ((stageArchitecture "s" .free .x86 ⟨"r/build_files/x64/../.."⟩).run' Runner.scripted
        stageQuirkSample).2.files.get? ["r", "build_files", "x64"] = some .directory ∧
      ((stageArchitecture "s" .free .x86 ⟨"root"⟩).run' Runner.scripted
        { files := ⟨[(["root"], .directory), (["root", "build_files"], .directory),
          (["root", "build_files", "x86"], .file "not a directory" false)]⟩ }).1 = .ok () ∧
      ((stageArchitecture "s" .free .x86 ⟨"root"⟩).run' Runner.scripted
        { files := ⟨[(["root"], .directory), (["root", "build_files"], .directory),
          (["root", "build_files", "x86"], .file "not a directory" false)]⟩ }).2.files.get?
        ["root", "build_files", "x86"] = some (.file "not a directory" false) ∧
      ((stageArchitecture "s" .free .x86 ⟨"s/honeutil/objfre_win7_x86/i386/r"⟩).run'
        Runner.scripted stageQuirkSample).2.files.get?
        ["s", "honeutil", "objfre_win7_x86", "i386", "r", "build_files", "x86", "hone.sys"] =
        some (.file "drv" false) := by
  decide +kernel

end Staging

end ReleaseBuild
