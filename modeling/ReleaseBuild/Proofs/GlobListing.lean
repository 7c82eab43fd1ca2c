import ReleaseBuild.Proofs.GlobEscape
import ReleaseBuild.Proofs.Emptying
/-!
# Listing a directory through an escaped pattern

The files of one kind directly inside a directory are found by the pattern
`Path.join (escape dir) ("*" ++ escape suffix)`: the directory's own text, escaped so that its
brackets, stars and question marks stand for themselves, then a star and the ending the names
must have. This module shows what the walk of such a pattern finds.

* The pattern never fails to read, whatever the directory text (`paths_listing`): its pieces
  are the escaped names of the directory text, then the star piece.
* An escaped name as a piece selects that name and nothing else, listed or not; so along the
  directory text the walk goes exactly where walking the tree by the same names goes
  (`expand_escaped`).
* **The listing** (`paths_listing_of_listable`): for a directory text that is absolute, or
  relative with a name other than the empty one and `.` after its leading `.` names, the walk
  finds the entries directly inside the directory it names
  whose names end in the suffix, in the order of their names, each as the walk's text for the
  directory joined with the name; and nothing when the text names no directory.

The two exceptions are those of the walk itself. The empty text lists the working directory,
though it names none; and below a leading `.` an empty name is looked up as the empty path,
which names nothing, so that `.//dir` finds nothing.
-/

set_option autoImplicit false

namespace ReleaseBuild

open GlobPattern FileTree

namespace GlobPattern

/-! ## Escaping a path, one name at a time -/

theorem splitOn_append_of_not_mem {xs : List Char} (h : '/' ∉ xs) (ys : List Char) :
    (xs ++ ys).splitOn '/' = (ys.splitOn '/').modifyHead (xs ++ ·) := by
  induction xs with
  | nil =>
    obtain ⟨first, rest, hsplit⟩ := List.exists_cons_of_ne_nil (List.splitOn_ne_nil '/' ys)
    simp [hsplit]
  | cons x xs ih =>
    have hx : (x == '/') = false := by
      simp only [beq_eq_false_iff_ne]
      exact fun hx => h (by simp [hx])
    rw [List.cons_append, List.splitOn_cons_eq_if_modifyHead, hx, ih (fun hm => h (by simp [hm]))]
    cases ys.splitOn '/' <;> simp

/-- Escaping keeps the separators where they are and escapes the names between them. -/
theorem splitOn_escaped (l : List Char) :
    (l.flatMap escapeChar).splitOn '/' = (l.splitOn '/').map (·.flatMap escapeChar) := by
  induction l with
  | nil => simp
  | cons c l ih =>
    rw [List.flatMap_cons, List.splitOn_cons_eq_if_modifyHead]
    by_cases hc : c = '/'
    · subst hc
      simp [escapeChar, isSpecial, List.splitOn_cons_eq_if_modifyHead, ih]
    · have hbeq : (c == '/') = false := by simpa using hc
      rw [splitOn_append_of_not_mem (sep_not_mem_escapeChar hc), ih, hbeq]
      cases l.splitOn '/' <;> simp

theorem escape_ofList (l : List Char) : escape (String.ofList l) = String.ofList (l.flatMap escapeChar) := by
  rw [← String.toList_inj, toList_escape]
  simp

/-- The names of an escaped path are the escaped names of the path. -/
theorem chunks_escape (path : String) : chunks (escape path) = (chunks path).map escape := by
  simp only [chunks, Path.chunks, toList_escape, splitOn_escaped, List.map_map]
  apply List.map_congr_left
  intro l _
  simp [escape_ofList]

theorem escape_eq_empty {path : String} : escape path = "" ↔ path = "" := by
  constructor
  · intro h
    have hlen := length_le_escaped path.toList
    rw [← toList_escape, h] at hlen
    simpa using hlen
  · rintro rfl
    decide

theorem escape_append (a b : String) : escape (a ++ b) = escape a ++ escape b := by
  rw [← String.toList_inj]
  simp [toList_escape]

theorem getLast?_escaped (l : List Char) :
    (l.flatMap escapeChar).getLast? = some '/' ↔ l.getLast? = some '/' := by
  rcases List.eq_nil_or_concat l with rfl | ⟨init, c, rfl⟩
  · simp
  · rw [List.concat_eq_append, List.flatMap_append, List.getLast?_append, List.getLast?_concat]
    by_cases hs : isSpecial c
    · have hc : c ≠ '/' := by
        rintro rfl
        simp [isSpecial] at hs
      simp [escapeChar, hs, hc]
    · simp [escapeChar, hs]

theorem head?_escaped (l : List Char) :
    (l.flatMap escapeChar).head? = some '/' ↔ l.head? = some '/' := by
  cases l with
  | nil => simp
  | cons c l =>
    by_cases hs : isSpecial c
    · have hc : c ≠ '/' := by
        rintro rfl
        simp [isSpecial] at hs
      simp [escapeChar, hs, hc]
    · simp [escapeChar, hs]

/-- The last name of a text that does not end with a separator is not empty. -/
theorem getLast?_splitOn_ne_nil {l : List Char} {c : Char} (hc : c ≠ '/') :
    ((l ++ [c]).splitOn '/').getLast? ≠ some [] := by
  induction l with
  | nil =>
    rw [List.nil_append, List.splitOn_eq_singleton (by simpa using hc.symm)]
    simp
  | cons x l ih =>
    rw [List.cons_append, List.splitOn_cons_eq_if_modifyHead]
    obtain ⟨first, rest, hsplit⟩ := List.exists_cons_of_ne_nil (List.splitOn_ne_nil '/' (l ++ [c]))
    rw [hsplit] at ih ⊢
    split
    · -- a separator starts a new name: the last name is the rest's last
      simpa [List.getLast?_cons_cons] using ih
    · cases rest with
      | nil => simp
      | cons r rs => simpa [List.getLast?_cons_cons] using ih

theorem endsWith_iff (path : String) : path.endsWith "/" = true ↔ ['/'] <:+ path.toList := by
  simp [← String.endsWith_toSlice]

theorem startsWith_iff (path : String) : path.startsWith "/" = true ↔ ['/'] <+: path.toList := by
  simp [← String.startsWith_toSlice]

theorem endsWith_escape (path : String) : (escape path).endsWith "/" = path.endsWith "/" := by
  rw [Bool.eq_iff_iff, endsWith_iff, endsWith_iff, toList_escape,
    List.singleton_suffix_iff_getLast?_eq_some, List.singleton_suffix_iff_getLast?_eq_some,
    getLast?_escaped]

end GlobPattern

namespace FileTree

/-! ## Paths built by joining names -/

section Joining

variable {t : FileTree} {cwd : Location}

/-- A path whose last name is not empty is not empty. -/
theorem ne_empty_of_chunks {path name : String} {l : List String}
    (h : chunks path = l ++ [name]) (hname : name ≠ "") : path ≠ "" := by
  rintro rfl
  have hlast := congrArg List.getLast? h
  simp [chunks, Path.chunks] at hlast
  exact hname hlast

/-- Only the empty path has the empty name as its only name. -/
theorem eq_empty_of_chunks {path : String} (h : chunks path = [""]) : path = "" := by
  obtain ⟨piece, hsplit, hpiece⟩ := List.map_eq_singleton_iff.1 h
  have hjoin : ['/'].intercalate (path.toList.splitOn '/') = path.toList :=
    List.intercalate_splitOn '/'
  rw [hsplit, ← String.toList_inj] at *
  simp_all

/-- What the first name of a path stands for among its components: a root, a leading `.`, or
what it says as an inner name. -/
def leadComponents (x : String) : List PathComponent :=
  if x = "" then [.root] else if x = "." then [.current] else Path.chunkComponents [x]

theorem chunkComponents_append (a b : List String) :
    Path.chunkComponents (a ++ b) = Path.chunkComponents a ++ Path.chunkComponents b :=
  List.filterMap_append

theorem components_of_chunks {p x : String} {l : List String} (hp : p ≠ "")
    (h : chunks p = x :: l) : Path.components p = leadComponents x ++ Path.chunkComponents l := by
  have hne : p.isEmpty = false := by simpa using hp
  unfold Path.components leadComponents
  rw [show Path.chunks p = x :: l from h]
  by_cases hx : x = ""
  · subst hx
    simp [hne]
  · by_cases hd : x = "."
    · subst hd
      simp
    · split
      · rename_i heq
        exact absurd (List.cons.inj heq).1 hx
      · rename_i heq
        exact absurd (List.cons.inj heq).1 hd
      · rw [if_neg hx, if_neg hd, ← chunkComponents_append]
        rfl

theorem chunkComponents_name {n : String} (hn : ValidName n) :
    Path.chunkComponents [n] = [.normal n] := by
  obtain ⟨hempty, hdot, hdots, -⟩ := hn
  simp [Path.chunkComponents, hempty, hdot, hdots]

/-- Joining a name onto a path adds what the name says to the path's components. -/
theorem components_join {P c : String} (hP : P ≠ "") (hc : '/' ∉ c.toList) :
    Path.components (Path.join P c) = Path.components P ++ Path.chunkComponents [c] := by
  obtain ⟨l, hjoin, hP', -⟩ := join_chunks_of_ne hP hc []
  cases l with
  | nil =>
    -- a path that is not empty has a first name
    exfalso
    rcases hP' with h | h
    · simp [chunks, Path.chunks, List.splitOn_ne_nil] at h
    · exact hP (eq_empty_of_chunks h)
  | cons x l =>
    have hne : Path.join P c ≠ "" := by
      intro h
      rw [h] at hjoin
      have hlen := congrArg List.length hjoin
      simp [chunks, Path.chunks] at hlen
    rw [List.cons_append] at hjoin
    rw [components_of_chunks hne hjoin, chunkComponents_append]
    rcases hP' with h | h
    · rw [components_of_chunks hP h, List.append_assoc]
    · -- the separator that ends the path leaves an empty name, which says nothing
      rw [List.cons_append] at h
      rw [components_of_chunks hP h, chunkComponents_append, List.append_assoc]
      simp [Path.chunkComponents]

/-- A valid name joined onto a path is the file name of the result. -/
theorem fileName_join {P n : String} (hP : P ≠ "") (hn : ValidName n) :
    Path.fileName (Path.join P n) = some n := by
  unfold Path.fileName
  rw [components_join hP hn.2.2.2, chunkComponents_name hn, List.getLast?_concat]

/-- The directory a path text leads to when all its names are walked through directories,
from where the path starts. -/
def walkText (t : FileTree) (cwd : Location) (path : String) : Except IoError Location :=
  t.walk (startOf cwd path) (chunks path)

/-- The empty name that a trailing separator leaves does not move the walk. -/
theorem walkText_of_chunks {P : String} {l : List String}
    (h : chunks P = l ∨ chunks P = l ++ [""]) : t.walkText cwd P = t.walk (startOf cwd P) l := by
  unfold walkText
  rcases h with h | h
  · rw [h]
  · rw [h, walk_append]
    cases t.walk (startOf cwd P) l with
    | error e => rfl
    | ok d => simp [Except.bind, walk]

/-- Joining a name onto a path walks one name further. -/
theorem walkText_join {P c : String} (hP : P ≠ "") (hc : '/' ∉ c.toList) :
    t.walkText cwd (Path.join P c) = (t.walkText cwd P).bind fun d => t.walk d [c] := by
  obtain ⟨l, hjoin, hP', hstart⟩ := join_chunks_of_ne hP hc cwd
  rw [walkText_of_chunks hP', walkText, hjoin, hstart, walk_append]

/-- In a real tree, a path whose names walk to a directory names that directory. -/
theorem lookup_of_walkText (ht : t.Valid) (hcwd : t.get? cwd = some .directory) {P : String}
    (hP : P ≠ "") {d : Location} (hd : t.walkText cwd P = .ok d) :
    t.lookup cwd P = .ok (d, .directory) :=
  (lookup_eq_directory_iff hP).2 ⟨hd, ht.walk_directory (get?_startOf hcwd P) hd⟩

/-- **A directory is where a walk ends.** In a real tree, a path names a directory exactly
when walking its names succeeds. -/
theorem isDirectory?_iff_walkText (ht : t.Valid) (hcwd : t.get? cwd = some .directory)
    {P : String} (hP : P ≠ "") : t.isDirectory? cwd P = true ↔ ∃ d, t.walkText cwd P = .ok d := by
  rw [isDirectory?_eq_true]
  constructor
  · rintro ⟨loc, h⟩
    exact ⟨loc, ((lookup_eq_directory_iff hP).1 h).1⟩
  · rintro ⟨d, h⟩
    exact ⟨d, lookup_of_walkText ht hcwd hP h⟩

/-- A path whose last name is valid fails to look up as the walk of the names before it fails. -/
theorem lookup_of_chunks_error {path name : String} {l : List String} {e : IoError}
    (hchunks : chunks path = l ++ [name]) (hname : name ≠ "")
    (hwalk : t.walk (startOf cwd path) l = .error e) : t.lookup cwd path = .error e := by
  have hne : path.isEmpty = false := by simpa using ne_empty_of_chunks hchunks hname
  unfold lookup resolve
  simp only [hne, Bool.false_eq_true, if_false, trimmedChunks_of_getLast hchunks hname,
    List.getLast?_concat, List.dropLast_concat]
  rw [show (if path.startsWith "/" = true then [] else cwd) = startOf cwd path from rfl, hwalk]
  rfl

/-- A name that exists inside a path shows the path walks to a directory. -/
theorem walkText_of_exists?_join {P c : String} (hc : ValidName c)
    (h : t.exists? cwd (Path.join P c) = true) : ∃ d, t.walkText cwd P = .ok d := by
  obtain ⟨l, hjoin, hP', hstart⟩ := join_chunks hc cwd P
  rw [walkText_of_chunks hP', ← hstart]
  cases hw : t.walk (startOf cwd (Path.join P c)) l with
  | ok d => exact ⟨d, rfl⟩
  | error e =>
    obtain ⟨loc, n, hlook⟩ := exists?_eq_true_iff.1 h
    rw [lookup_of_chunks_error hjoin hc.1 hw] at hlook
    cases hlook

/-- A name joined onto a directory exists when the directory has an entry of that name. -/
theorem exists?_join_name {P c : String} {d : Location}
    (hdir : t.lookup cwd P = .ok (d, .directory)) (hc : ValidName c) :
    t.exists? cwd (Path.join P c) = (t.get? (d ++ [c])).isSome := by
  unfold exists? stat
  rw [lookup_join hdir hc]
  cases t.get? (d ++ [c]) <;> rfl

/-- A path ending in a separator resolves to a target that has to be a directory. -/
theorem slash_of_resolve {Q : String} {target : Target} (hQ : Q.endsWith "/" = true)
    (h : t.resolve cwd Q = .ok target) : target.slash = true := by
  unfold resolve at h
  by_cases he : Q.isEmpty = true
  · simp [he] at h
  · simp only [he, Bool.false_eq_true, if_false] at h
    cases hl : (trimmedChunks Q).getLast? with
    | none =>
      simp only [hl, Except.ok.injEq] at h
      rw [← h]
    | some last =>
      simp only [hl, bind, Except.bind] at h
      -- every target read from the last name keeps the trailing separator
      split at h
      · cases h
      · split at h
        · cases h
          exact hQ
        · split at h <;> (cases h; exact hQ)

/-- Whatever a path ending in a separator names is a directory. -/
theorem exists?_of_endsWith {Q : String} (hQ : Q.endsWith "/" = true) :
    t.exists? cwd Q = t.isDirectory? cwd Q := by
  unfold exists? isDirectory? stat lookup
  cases hr : t.resolve cwd Q with
  | error e => rfl
  | ok target =>
    simp only [bind, Except.bind]
    cases t.get? target.location with
    | none => rfl
    | some n =>
      cases n with
      | directory => rfl
      | file c x => simp [slash_of_resolve hQ hr, Except.map]

theorem join_ne_empty {P : String} (hP : P ≠ "") (c : String) : Path.join P c ≠ "" := by
  unfold Path.join
  split
  · rename_i habs
    rintro rfl
    simp [Path.isAbsolute] at habs
  · split <;> simp [hP]

theorem endsWith_join_empty {P : String} (hP : P ≠ "") : (Path.join P "").endsWith "/" = true := by
  have hrel : Path.isAbsolute "" = false := by decide
  unfold Path.join
  rw [hrel, if_neg Bool.false_ne_true]
  split
  · rename_i hend
    simp only [Bool.or_eq_true, String.isEmpty_iff, hP, false_or] at hend
    simpa using hend
  · rw [endsWith_iff]
    simp

/-- A separator joined onto a path names the same directory, and nothing that is not one. -/
theorem exists?_join_empty (ht : t.Valid) (hcwd : t.get? cwd = some .directory) {P : String}
    (hP : P ≠ "") : t.exists? cwd (Path.join P "") = t.isDirectory? cwd P := by
  rw [exists?_of_endsWith (endsWith_join_empty hP), Bool.eq_iff_iff,
    isDirectory?_iff_walkText ht hcwd (join_ne_empty hP ""), isDirectory?_iff_walkText ht hcwd hP,
    walkText_join hP (by simp)]
  cases t.walkText cwd P with
  | error e => simp [Except.bind]
  | ok d => simp [Except.bind, walk]

/-- Below a path that names no directory, a name other than `.` and `..` names nothing. -/
theorem exists?_join_of_not_isDirectory (ht : t.Valid) (hcwd : t.get? cwd = some .directory)
    {P c : String} (hP : P ≠ "") (hc : '/' ∉ c.toList) (hdot : c ≠ ".") (hdots : c ≠ "..")
    (hnd : t.isDirectory? cwd P = false) : t.exists? cwd (Path.join P c) = false := by
  by_cases hempty : c = ""
  · rw [hempty, exists?_join_empty ht hcwd hP, hnd]
  · rw [Bool.eq_false_iff]
    intro hex
    obtain ⟨d, hd⟩ := walkText_of_exists?_join ⟨hempty, hdot, hdots, hc⟩ hex
    rw [(isDirectory?_iff_walkText ht hcwd hP).2 ⟨d, hd⟩] at hnd
    cases hnd

theorem join_ne_dot {P c : String} (hP : P ≠ "") (hPdot : P ≠ ".") (hc : '/' ∉ c.toList) :
    Path.join P c ≠ "." := by
  have hrel : Path.isAbsolute c = false := by
    rw [Path.isAbsolute, Bool.eq_false_iff, ne_eq, startsWith_iff]
    rintro ⟨rest, h⟩
    exact hc (h ▸ List.mem_cons_self)
  have hdot : ".".toList = ['.'] := by decide
  unfold Path.join
  rw [hrel, if_neg Bool.false_ne_true]
  intro h
  have h' := congrArg String.toList h
  split at h'
  · rw [String.toList_append, hdot] at h'
    rcases List.append_eq_singleton_iff.1 h' with ⟨h1, -⟩ | ⟨h1, -⟩
    · exact hP (String.toList_inj.1 (by rw [h1]; decide))
    · exact hPdot (String.toList_inj.1 (by rw [h1, hdot]))
  · rw [String.toList_append, String.toList_append, hdot, show "/".toList = ['/'] by decide] at h'
    -- a text with a separator in it ends with one or goes on after it
    rcases List.append_eq_singleton_iff.1 h' with ⟨h2, -⟩ | ⟨h2, -⟩ <;>
      have hl := congrArg List.getLast? h2 <;> simp at hl

/-- A valid name alone is its own file name. -/
theorem fileName_name {n : String} (hn : ValidName n) : Path.fileName n = some n := by
  unfold Path.fileName
  rw [components_of_chunks hn.1 (show chunks n = n :: [] from chunks_of_not_mem hn.2.2.2),
    leadComponents, if_neg hn.1, if_neg hn.2.1, chunkComponents_name hn]
  rfl

theorem startOf_name {c : String} (hc : '/' ∉ c.toList) : startOf cwd c = cwd := by
  have hrel : c.startsWith "/" = false := by
    rw [Bool.eq_false_iff, ne_eq, startsWith_iff]
    exact fun ⟨rest, h⟩ => hc (h ▸ List.mem_cons_self)
  simp [startOf, hrel]

/-- A name alone is looked up in the working directory. -/
theorem exists?_name {c : String} (hc : ValidName c) :
    t.exists? cwd c = (t.get? (cwd ++ [c])).isSome := by
  have hwalk : t.walk (startOf cwd c) [] = .ok cwd := by rw [startOf_name hc.2.2.2]; rfl
  unfold exists? stat
  rw [lookup_of_chunks (show chunks c = [] ++ [c] from chunks_of_not_mem hc.2.2.2) hc hwalk]
  cases t.get? (cwd ++ [c]) <;> rfl

theorem walkText_dot : t.walkText cwd "." = .ok cwd := by
  rw [walkText, startOf_name (by decide), show chunks "." = ["."] from chunks_of_not_mem (by decide)]
  simp [walk]

/-- A name that is present, or that needs no entry, lets the walk go on; the walk stops at any
other name. -/
theorem walk_cons_of_present {d : Location} {c : String} {rest : List String}
    (hc : '/' ∉ c.toList) {β : Type} (f : Location → List β) :
    (if c = "" ∨ c = "." ∨ c = ".." ∨ (t.get? (d ++ [c])).isSome then
      (match (t.walk d [c]).bind fun d' => t.walk d' rest with
        | .ok d' => f d'
        | .error _ => [])
    else []) =
      match t.walk d (c :: rest) with
      | .ok d' => f d'
      | .error _ => [] := by
  have hwalk : t.walk d (c :: rest) = (t.walk d [c]).bind fun d' => t.walk d' rest :=
    walk_append d [c] rest
  rw [hwalk]
  by_cases hcond : c = "" ∨ c = "." ∨ c = ".." ∨ (t.get? (d ++ [c])).isSome = true
  · rw [if_pos hcond]
  · rw [if_neg hcond]
    simp only [not_or, Bool.not_eq_true, Option.isSome_eq_false_iff, Option.isNone_iff_eq_none]
      at hcond
    obtain ⟨hempty, hdot, hdotdot, hget⟩ := hcond
    rw [walk_name ⟨hempty, hdot, hdotdot, hc⟩, hget]
    rfl

theorem foldl_join_ne_empty {P : String} (hP : P ≠ "") (rest : List String) :
    rest.foldl Path.join P ≠ "" := by
  induction rest generalizing P with
  | nil => exact hP
  | cons c rest ih => exact ih (join_ne_empty hP c)

/-- Joining names one by one adds what each says to the components. -/
theorem components_foldl_join {P : String} (hP : P ≠ "") {rest : List String}
    (hsep : ∀ c ∈ rest, '/' ∉ c.toList) :
    Path.components (rest.foldl Path.join P) = Path.components P ++ Path.chunkComponents rest := by
  induction rest generalizing P with
  | nil => simp [Path.chunkComponents]
  | cons c rest ih =>
    rw [List.foldl_cons, ih (join_ne_empty hP c) (fun c' h => hsep c' (List.mem_cons_of_mem _ h)),
      components_join hP (hsep c List.mem_cons_self), List.append_assoc, ← chunkComponents_append]
    rfl

/-- Joining names one by one walks them one by one. -/
theorem walkText_foldl_join {P : String} (hP : P ≠ "") {rest : List String}
    (hsep : ∀ c ∈ rest, '/' ∉ c.toList) :
    t.walkText cwd (rest.foldl Path.join P) = (t.walkText cwd P).bind fun d => t.walk d rest := by
  induction rest generalizing P with
  | nil =>
    rw [List.foldl_nil]
    cases t.walkText cwd P <;> rfl
  | cons c rest ih =>
    rw [List.foldl_cons, ih (join_ne_empty hP c) (fun c' h => hsep c' (List.mem_cons_of_mem _ h)),
      walkText_join hP (hsep c List.mem_cons_self)]
    cases t.walkText cwd P with
    | error e => rfl
    | ok d => exact (walk_append d [c] rest).symm

theorem isDirectory?_of_walkText_error (ht : t.Valid) (hcwd : t.get? cwd = some .directory)
    {P : String} (hP : P ≠ "") {e : IoError} (h : t.walkText cwd P = .error e) :
    t.isDirectory? cwd P = false := by
  rw [Bool.eq_false_iff]
  intro hdir
  obtain ⟨d, hd⟩ := (isDirectory?_iff_walkText ht hcwd hP).1 hdir
  rw [hd] at h
  cases h

end Joining

end FileTree

namespace GlobWalk

/-! ## The listing pattern -/

/-- The piece an escaped name reads to. -/
def escapedPiece (name : String) : GlobPattern := ⟨name.toList.map escapedToken, false⟩

/-- The last piece of a listing pattern: a star, then the escaped ending of the names. -/
def starPiece (suffix : String) : GlobPattern := ⟨.anySequence :: suffix.toList.map escapedToken, false⟩

/-- The pattern of the names ending in `suffix` directly inside the directory `dir`. -/
def listingPattern (dir suffix : String) : String := Path.join (escape dir) ("*" ++ escape suffix)

/-- The names of a directory text after its root, a trailing separator adding none. -/
def dirPieces (dir : String) : List String :=
  pieces (String.ofList (dir.toList.drop (rootLength dir)))

theorem parse_escape (name : String) : parse (escape name) = .ok (escapedPiece name) := by
  have h := parse_escaped name.toList
  rwa [← escape_ofList, String.ofList_toList] at h

theorem parse_star (suffix : String) : parse ("*" ++ escape suffix) = .ok (starPiece suffix) := by
  have h := parse_star_escaped [] suffix.toList
  simp only [List.flatMap_nil, List.nil_append, List.map_nil] at h
  have htext : "*" ++ escape suffix = String.ofList ('*' :: suffix.toList.flatMap escapeChar) := by
    rw [← String.toList_inj]
    simp [toList_escape]
  rw [htext, h]
  rfl

theorem accepts_escapedPiece (name text : String) :
    (escapedPiece name).accepts text = true ↔ text = name := by
  simp only [accepts, escapedPiece, matchFrom_escaped, beq_iff_eq]
  by_cases h : text.toList = name.toList
  · simp [String.toList_inj.1 h]
  · have hne : text ≠ name := fun he => h (by rw [he])
    by_cases hpre : text.toList <+: name.toList <;> simp [h, hpre, hne]

theorem accepts_starPiece (suffix text : String) :
    (starPiece suffix).accepts text = true ↔ suffix.toList <:+ text.toList := by
  simp only [accepts, starPiece, beq_iff_eq]
  exact matchFrom_star_escaped _ _ _

theorem literalText?_escapedPiece (name : String) :
    (escapedPiece name).literalText? =
      if name.toList.any isSpecial then none else some name := by
  rw [escapedPiece, literalText?_escaped, String.ofList_toList]

/-- The text of a listing pattern: the escaped directory text with a separator after it unless
it is empty or has one, then the star and the escaped ending. -/
theorem toList_listingPattern (dir suffix : String) :
    (listingPattern dir suffix).toList =
      (dir.toList ++ if dir.isEmpty || dir.endsWith "/" then [] else ['/']).flatMap escapeChar ++
        '*' :: suffix.toList.flatMap escapeChar := by
  have hrel : Path.isAbsolute ("*" ++ escape suffix) = false := by
    rw [Path.isAbsolute, Bool.eq_false_iff, ne_eq, startsWith_iff]
    simp
  have hempty : (escape dir).isEmpty = dir.isEmpty := by
    rw [Bool.eq_iff_iff]
    simp [String.isEmpty_iff, escape_eq_empty]
  unfold listingPattern Path.join
  rw [hrel, hempty, endsWith_escape]
  simp only [Bool.false_eq_true, if_false]
  by_cases hcond : (dir.isEmpty || dir.endsWith "/") = true
  · rw [if_pos hcond, if_pos hcond]
    simp [toList_escape]
  · rw [if_neg hcond, if_neg hcond]
    simp [toList_escape, escapeChar, isSpecial]

/-- The body of a directory text after its root is empty or ends with a separator when the
text is empty or ends with one, and ends with another character otherwise. -/
theorem body_shape (dir : String) :
    ((dir.isEmpty || dir.endsWith "/") = true →
      dir.toList.drop (rootLength dir) = [] ∨ ∃ B, dir.toList.drop (rootLength dir) = B ++ ['/']) ∧
    ((dir.isEmpty || dir.endsWith "/") = false →
      ∃ B c, dir.toList.drop (rootLength dir) = B ++ [c] ∧ c ≠ '/') := by
  rcases List.eq_nil_or_concat dir.toList with hnil | ⟨A, c, hA⟩
  · have hempty : dir.isEmpty = true := String.isEmpty_iff.2 (String.toList_inj.1 hnil)
    refine ⟨fun _ => Or.inl (by rw [hnil, List.drop_nil]), fun h => ?_⟩
    simp [hempty] at h
  · rw [List.concat_eq_append] at hA
    have hne : dir.isEmpty = false := by
      rw [Bool.eq_false_iff, ne_eq, String.isEmpty_iff, ← String.toList_inj, hA]
      simp
    have hend : dir.endsWith "/" = true ↔ c = '/' := by
      rw [endsWith_iff, hA, List.singleton_suffix_iff_getLast?_eq_some, List.getLast?_concat]
      simp
    -- a root of one character is the whole text only when the text is the root
    have hroot : rootLength dir ≤ A.length ∨ (A = [] ∧ c = '/') := by
      unfold rootLength
      split
      · rename_i hstart
        rw [startsWith_iff, hA, List.singleton_prefix_iff_head?_eq_some] at hstart
        cases A with
        | nil => simp at hstart; exact Or.inr ⟨rfl, hstart⟩
        | cons a A => exact Or.inl (by simp)
      · exact Or.inl (Nat.zero_le _)
    rw [hA]
    constructor
    · intro h
      simp only [hne, Bool.false_or] at h
      rcases hroot with hroot | ⟨rfl, rfl⟩
      · exact Or.inr ⟨A.drop (rootLength dir), by rw [List.drop_append_of_le_length hroot, hend.1 h]⟩
      · left
        unfold rootLength
        split
        · rfl
        · rename_i hns
          exact absurd (by rw [startsWith_iff, hA]; simp) hns
    · intro h
      simp only [hne, Bool.false_or, Bool.eq_false_iff, ne_eq, hend] at h
      rcases hroot with hroot | ⟨-, hc⟩
      · exact ⟨A.drop (rootLength dir), c, List.drop_append_of_le_length hroot, h⟩
      · exact absurd hc h

/-! ## The pieces of a listing pattern -/

theorem pieces_empty : pieces "" = [] := by decide

/-- A text whose last name is not empty is all its names. -/
theorem pieces_of_getLast? {rest : String} (h : (chunks rest).getLast? ≠ some "") :
    pieces rest = chunks rest := by
  unfold pieces
  split
  · rename_i others hrev
    exfalso
    apply h
    show (Path.chunks rest).getLast? = some ""
    rw [← List.head?_reverse, hrev]
    rfl
  · rw [List.reverse_reverse]
    rfl

/-- A trailing separator adds no name. -/
theorem pieces_append_sep (B : List Char) :
    pieces (String.ofList (B ++ ['/'])) = chunks (String.ofList B) := by
  have hsplit := chunks_of_toList_eq
    (show (String.ofList (B ++ ['/'])).toList = B ++ '/' :: [] by simp)
  unfold pieces
  rw [show Path.chunks (String.ofList (B ++ ['/'])) = chunks (String.ofList (B ++ ['/'])) from rfl,
    hsplit]
  simp

theorem pieces_of_not_sep {B : List Char} {c : Char} (hc : c ≠ '/') :
    pieces (String.ofList (B ++ [c])) = chunks (String.ofList (B ++ [c])) := by
  apply pieces_of_getLast?
  simp only [chunks, Path.chunks, String.toList_ofList, List.getLast?_map, ne_eq,
    Option.map_eq_some_iff, not_exists, not_and]
  intro l hl hempty
  have : l = [] := by simpa [← String.toList_inj] using hempty
  exact getLast?_splitOn_ne_nil hc (this ▸ hl)

theorem chunks_star (suffix : String) (hsuffix : '/' ∉ suffix.toList) :
    chunks (String.ofList ('*' :: suffix.toList.flatMap escapeChar)) = ["*" ++ escape suffix] := by
  rw [chunks_of_not_mem]
  · congr 1
    rw [← String.toList_inj]
    simp [toList_escape]
  · simp only [String.toList_ofList, List.mem_cons, List.mem_flatMap, not_or, not_exists, not_and]
    exact ⟨by decide, fun c hc => sep_not_mem_escapeChar fun h => hsuffix (h ▸ hc)⟩

/-- The star piece, after an escaped text ending with a separator, is a name of its own. -/
theorem chunks_escaped_star (B : List Char) (suffix : String) (hsuffix : '/' ∉ suffix.toList) :
    chunks (String.ofList (B.flatMap escapeChar ++ '/' :: '*' :: suffix.toList.flatMap escapeChar)) =
      (chunks (String.ofList B)).map escape ++ ["*" ++ escape suffix] := by
  rw [chunks_of_toList_eq (A := B.flatMap escapeChar) (B := '*' :: suffix.toList.flatMap escapeChar)
    (by simp), chunks_star suffix hsuffix, ← escape_ofList, chunks_escape]

/-- A listing pattern after its root is the escaped text of the directory's body with a
separator after it unless it has one or is empty, then the star and the escaped ending. -/
theorem rootLength_listingPattern (dir suffix : String) :
    rootLength (listingPattern dir suffix) = rootLength dir := by
  unfold rootLength
  congr 1
  rw [Bool.eq_iff_iff, startsWith_iff, startsWith_iff, toList_listingPattern,
    List.singleton_prefix_iff_head?_eq_some, List.singleton_prefix_iff_head?_eq_some]
  cases hd : dir.toList with
  | nil => simp [String.isEmpty_iff, ← String.toList_inj, hd]
  | cons c cs =>
    rw [List.cons_append, List.flatMap_cons, List.append_assoc, List.head?_append,
      Option.or_of_isSome (by unfold escapeChar; split <;> simp)]
    have := head?_escaped [c]
    simp only [List.flatMap_cons, List.flatMap_nil, List.append_nil, List.head?_cons] at this
    simpa using this

theorem drop_listingPattern (dir suffix : String) :
    (listingPattern dir suffix).toList.drop (rootLength (listingPattern dir suffix)) =
      (dir.toList.drop (rootLength dir) ++
        if dir.isEmpty || dir.endsWith "/" then [] else ['/']).flatMap escapeChar ++
        '*' :: suffix.toList.flatMap escapeChar := by
  rw [rootLength_listingPattern, toList_listingPattern]
  unfold rootLength
  split
  · rename_i hstart
    rw [startsWith_iff] at hstart
    obtain ⟨b, hb⟩ := hstart
    rw [← hb]
    simp [escapeChar, isSpecial]
  · simp

/-- **The pieces of a listing pattern** are the escaped names of the directory's body, then the
star piece. -/
theorem pieces_listingPattern (dir suffix : String) (hsuffix : '/' ∉ suffix.toList) :
    pieces (String.ofList ((listingPattern dir suffix).toList.drop
        (rootLength (listingPattern dir suffix)))) =
      (dirPieces dir).map escape ++ ["*" ++ escape suffix] := by
  rw [drop_listingPattern, dirPieces]
  have hpieces (B : List Char) : pieces (String.ofList (B.flatMap escapeChar ++ '/' :: '*' ::
      suffix.toList.flatMap escapeChar)) = (chunks (String.ofList B)).map escape ++
        ["*" ++ escape suffix] := by
    rw [pieces_of_getLast? (by rw [chunks_escaped_star B suffix hsuffix]; simp),
      chunks_escaped_star B suffix hsuffix]
  have hsepEsc (B : List Char) (r : List Char) :
      (B ++ ['/']).flatMap escapeChar ++ r = B.flatMap escapeChar ++ '/' :: r := by
    simp [escapeChar, isSpecial]
  obtain ⟨hsep, hname⟩ := body_shape dir
  cases hcond : (dir.isEmpty || dir.endsWith "/") with
  | true =>
    simp only [if_true, List.append_nil]
    rcases hsep hcond with hbody | ⟨B, hbody⟩ <;> rw [hbody]
    · -- nothing before the star
      rw [List.flatMap_nil, List.nil_append,
        pieces_of_getLast? (by rw [chunks_star suffix hsuffix]; simp),
        chunks_star suffix hsuffix]
      simp [pieces_empty]
    · -- the body's own trailing separator is the one before the star
      rw [hsepEsc, hpieces, pieces_append_sep]
  | false =>
    simp only [Bool.false_eq_true, if_false]
    obtain ⟨B, c, hbody, hc⟩ := hname hcond
    rw [hbody, hsepEsc, hpieces, pieces_of_not_sep hc]

/-- Reading the pieces: the escaped names, then the star piece. -/
theorem mapM_parse_escape (names : List String) {tail : List String} {parsed : List GlobPattern}
    (htail : tail.mapM parse = .ok parsed) :
    (names.map escape ++ tail).mapM parse = .ok (names.map escapedPiece ++ parsed) := by
  induction names with
  | nil => simpa using htail
  | cons n names ih =>
    simp only [List.map_cons, List.cons_append, List.mapM_cons, parse_escape, ih]
    rfl

theorem parsePieces_listing (dir suffix : String) :
    parsePieces ((dirPieces dir).map escape ++ ["*" ++ escape suffix]) =
      .ok ((dirPieces dir).map escapedPiece ++ [starPiece suffix]) :=
  mapM_parse_escape _ (by simp only [List.mapM_cons, List.mapM_nil, parse_star]; rfl)

/-- The whole listing pattern reads without fault. -/
theorem parse_listingPattern (dir suffix : String) :
    ∃ p, parse (listingPattern dir suffix) = .ok p := by
  have htext : listingPattern dir suffix = String.ofList
      ((dir.toList ++ if dir.isEmpty || dir.endsWith "/" then [] else ['/']).flatMap escapeChar ++
        '*' :: suffix.toList.flatMap escapeChar) := by
    rw [← String.toList_inj, toList_listingPattern, String.toList_ofList]
  rw [htext]
  exact ⟨_, parse_star_escaped _ _⟩

theorem endsWith_listingPattern {dir suffix : String} (hsuffix : '/' ∉ suffix.toList) :
    (listingPattern dir suffix).endsWith "/" = false := by
  rw [Bool.eq_false_iff, ne_eq, endsWith_iff, toList_listingPattern,
    List.singleton_suffix_iff_getLast?_eq_some, List.getLast?_append, List.getLast?_cons]
  cases hlast : suffix.toList.getLast? with
  | none =>
    rw [List.getLast?_eq_none_iff] at hlast
    simp [hlast]
  | some c =>
    have hnot : (suffix.toList.flatMap escapeChar).getLast? ≠ some '/' := by
      rw [ne_eq, getLast?_escaped, hlast]
      rintro ⟨⟩
      exact hsuffix (List.mem_of_getLast? hlast)
    obtain ⟨x, hx⟩ := Option.ne_none_iff_exists'.1 (by
      rw [ne_eq, List.getLast?_eq_none_iff]
      intro h
      rw [List.flatMap_eq_nil_iff] at h
      have := h c (List.mem_of_getLast? hlast)
      unfold escapeChar at this
      split at this <;> simp at this : (suffix.toList.flatMap escapeChar).getLast? ≠ none)
    rw [hx] at hnot ⊢
    simpa using hnot

/-- The walk of a listing pattern. -/
def listingWalk (t : FileTree) (cwd : Location) (dir suffix : String) : Walk :=
  ⟨t, cwd, (dirPieces dir).map escapedPiece ++ [starPiece suffix], false⟩

/-- Where the walk of a directory text starts: the root for an absolute text, the working
directory otherwise. -/
def scopeOf (dir : String) : String := if rootLength dir == 0 then "." else "/"

/-- **A listing pattern never fails to read**: its result is the walk of its pieces from the
start of the directory text, with fuel for every piece and every entry of the tree. -/
theorem paths_listing (t : FileTree) (cwd : Location) (dir suffix : String)
    (hsuffix : '/' ∉ suffix.toList) :
    paths t cwd (listingPattern dir suffix) =
      .ok ((listingWalk t cwd dir suffix).expand
        (4 * ((dirPieces dir).length + 1 + t.entries.length + 4)) 0
        ((listingWalk t cwd dir suffix).visit (scopeOf dir))) := by
  obtain ⟨p, hp⟩ := parse_listingPattern dir suffix
  unfold paths
  simp only [hp, bind, Except.bind]
  rw [pieces_listingPattern dir suffix hsuffix, parsePieces_listing]
  simp [listingWalk, scopeOf, rootLength_listingPattern, endsWith_listingPattern hsuffix]
  rfl

/-! ## Walking escaped names -/

/-- Over a list without repeats, what is kept for one entry alone is kept once. -/
theorem flatMap_eq_of_nodup {α β : Type} [DecidableEq α] {l : List α} (hl : l.Nodup) (a : α)
    (f : α → List β) : (l.flatMap fun x => if x = a then f x else []) = if a ∈ l then f a else [] := by
  induction l with
  | nil => simp
  | cons x xs ih =>
    obtain ⟨hx, hxs⟩ := List.nodup_cons.1 hl
    rw [List.flatMap_cons, ih hxs]
    by_cases hxa : x = a
    · subst hxa
      simp [hx]
    · simp [hxa, Ne.symm hxa]

theorem flatMap_ite_singleton {α β : Type} (l : List α) (p : α → Bool) (f : α → β) :
    (l.flatMap fun x => if p x then [f x] else []) = (l.filter p).map f := by
  induction l with
  | nil => rfl
  | cons x xs ih =>
    rw [List.flatMap_cons, ih, List.filter_cons]
    cases p x <;> simp

/-- A name with a glob character in it is a valid name when it has no separator. -/
theorem validName_of_special {c : String} (hc : '/' ∉ c.toList) (hs : c.toList.any isSpecial = true) :
    ValidName c := by
  refine ⟨?_, ?_, ?_, hc⟩ <;> rintro rfl <;> revert hs <;> decide

namespace Walk

variable {w : Walk}

theorem child_of_ne {P : String} (h : P ≠ ".") (c : String) : child P c = Path.join P c := by
  simp [child, h]

theorem child_dot (c : String) : child "." c = c := by simp [child]

theorem fileName_child {P n : String} (hP : P ≠ "") (hn : ValidName n) :
    Path.fileName (child P n) = some n := by
  unfold child
  split
  · exact fileName_name hn
  · exact fileName_join hP hn

/-- A valid name below a path that walks to a directory exists when the directory has an entry
of that name. -/
theorem exists?_child_name (ht : w.tree.Valid) (hcwd : w.tree.get? w.cwd = some .directory)
    {P c : String} (hP : P ≠ "") (hc : ValidName c) {d : Location}
    (hd : w.tree.walkText w.cwd P = .ok d) :
    w.tree.exists? w.cwd (child P c) = (w.tree.get? (d ++ [c])).isSome := by
  by_cases hdot : P = "."
  · subst hdot
    rw [walkText_dot] at hd
    cases hd
    rw [child_dot, exists?_name hc]
  · rw [child_of_ne hdot, exists?_join_name (lookup_of_walkText ht hcwd hP hd) hc]

theorem foldl_child {P : String} (hP : P ≠ "") (hPdot : P ≠ ".") {rest : List String}
    (hsep : ∀ c ∈ rest, '/' ∉ c.toList) : rest.foldl child P = rest.foldl Path.join P := by
  induction rest generalizing P with
  | nil => rfl
  | cons c rest ih =>
    have hc := hsep c List.mem_cons_self
    rw [List.foldl_cons, List.foldl_cons, child_of_ne hPdot,
      ih (join_ne_empty hP c) (join_ne_dot hP hPdot hc) fun c' h => hsep c' (List.mem_cons_of_mem _ h)]

theorem literalText?_starPiece (suffix : String) : (starPiece suffix).literalText? = none := by
  simp [starPiece, GlobPattern.literalText?]

theorem startsWithDot_starPiece (suffix : String) : startsWithDot (starPiece suffix) = false := rfl

/-- A name listed in a directory is matched against a piece that is not `**` directly. -/
theorem visitAt_child {i : Nat} {p : GlobPattern} (hp : w.pieces[i]? = some p)
    (hrec : p.recursive = false) {P n : String} (hP : P ≠ "") (hn : ValidName n) (fuel : Nat) :
    w.visitAt (fuel + 2) i (w.visit (child P n)) =
      if p.accepts n then
        if w.isLast i then
          (if !w.requireDir || (w.visit (child P n)).isDir then [child P n] else [])
        else w.expand fuel (i + 1) (w.visit (child P n))
      else [] := by
  have hrecAt : w.isRecursiveAt i = false := by simp [isRecursiveAt, hp, hrec]
  rw [visitAt, hrecAt, if_neg Bool.false_ne_true, matchName, hp]
  simp only [visit, fileName_child hP hn]

/-- **Nothing below what is not a directory.** An escaped name or the star piece finds nothing
below a path that names no directory. -/
theorem expand_of_not_isDirectory (ht : w.tree.Valid) (hcwd : w.tree.get? w.cwd = some .directory)
    {i : Nat} {p : GlobPattern} (hp : w.pieces[i]? = some p)
    (hpiece : (∃ c, '/' ∉ c.toList ∧ p = escapedPiece c) ∨ ∃ suffix, p = starPiece suffix)
    {P : String} (hP : P ≠ "") (hPdot : P ≠ ".") (hnd : w.tree.isDirectory? w.cwd P = false)
    (fuel : Nat) : w.expand fuel i (w.visit P) = [] := by
  cases fuel with
  | zero => rw [expand]
  | succ fuel =>
    rw [expand, hp]
    dsimp only
    rcases hpiece with ⟨c, hc, rfl⟩ | ⟨suffix, rfl⟩
    · rw [literalText?_escapedPiece]
      by_cases hs : c.toList.any isSpecial = true
      · simp [hs, visit, hnd]
      · -- a literal name is looked up: `.` and `..` need a directory, other names an entry
        by_cases hdots : c = "." ∨ c = ".."
        · have hspecial : (c == "." || c == "..") = true := by simpa using hdots
          simp [hs, hspecial, visit, hnd]
        · obtain ⟨hdot, hdotdot⟩ := not_or.1 hdots
          have hex := exists?_join_of_not_isDirectory ht hcwd hP hc hdot hdotdot hnd
          simp [hs, visit, hnd, child_of_ne hPdot, hex]
    · simp [literalText?_starPiece, visit, hnd]

@[simp] theorem visit_path (P : String) : (w.visit P).path = P := rfl

@[simp] theorem visit_isDir (P : String) : (w.visit P).isDir = w.tree.isDirectory? w.cwd P := rfl

theorem readDir_of_lookup {P : String} {d : Location}
    (h : w.tree.lookup w.cwd P = .ok (d, .directory)) :
    w.tree.readDir w.cwd P = .ok (d, w.tree.childNames d) := by
  simp [readDir, h, bind, Except.bind]

/-- **One escaped name.** Below a directory, an escaped name that is not the last piece goes on
to the path with that name below, when the directory has an entry of that name, as it always
has for the empty name, `.` and `..`; otherwise it finds nothing. A literal name is looked up
directly and any other through the listing, which costs more fuel. -/
theorem expand_escaped_step (ht : w.tree.Valid) (hcwd : w.tree.get? w.cwd = some .directory)
    {i : Nat} {c : String} (hp : w.pieces[i]? = some (escapedPiece c)) (hlast : w.isLast i = false)
    (hc : '/' ∉ c.toList) {P : String} (hP : P ≠ "") (hchild : P = "." → c ≠ "") {d : Location}
    (hd : w.tree.walkText w.cwd P = .ok d) (fuel : Nat) :
    ∃ fuel', fuel ≤ fuel' ∧ w.expand (fuel + 3) i (w.visit P) =
      if c = "" ∨ c = "." ∨ c = ".." ∨ (w.tree.get? (d ++ [c])).isSome then
        w.expand fuel' (i + 1) (w.visit (child P c))
      else [] := by
  have hlook := lookup_of_walkText ht hcwd hP hd
  have hdir : w.tree.isDirectory? w.cwd P = true := (isDirectory?_iff_walkText ht hcwd hP).2 ⟨d, hd⟩
  by_cases hs : c.toList.any isSpecial = true
  · -- a name with a glob character is matched against the names the directory lists
    have hname := validName_of_special hc hs
    refine ⟨fuel, le_refl fuel, ?_⟩
    rw [expand, hp]
    dsimp only
    rw [literalText?_escapedPiece]
    simp only [hs, if_true, visit_path, visit_isDir, hdir, readDir_of_lookup hlook, Bool.not_true,
      Bool.false_eq_true, if_false]
    -- `.` and `..` are not the name, so the only paths come from the listing
    have hdot : (escapedPiece c).accepts "." = false :=
      Bool.eq_false_iff.2 fun h => hname.2.1 ((accepts_escapedPiece c ".").1 h).symm
    have hdotdot : (escapedPiece c).accepts ".." = false :=
      Bool.eq_false_iff.2 fun h => hname.2.2.1 ((accepts_escapedPiece c "..").1 h).symm
    have hlisted : ((sortNames (w.tree.childNames d)).flatMap fun name =>
          w.visitAt (fuel + 2) i (w.visit (child P name))) =
        (sortNames (w.tree.childNames d)).flatMap fun name =>
          if name = c then w.expand fuel (i + 1) (w.visit (child P name)) else [] := by
      refine List.flatMap_congr fun name hmem => ?_
      rw [visitAt_child hp rfl hP (validName_of_mem_childNames ht.named (mem_sortNames.1 hmem)),
        hlast]
      simp [accepts_escapedPiece]
    rw [hlisted, flatMap_eq_of_nodup (ht.nodup_sortNames d)]
    simp [hdot, hdotdot, hname.1, hname.2.1, hname.2.2.1, mem_childNames_iff,
      Option.isSome_iff_ne_none]
  · -- a literal name is looked up without listing the directory
    refine ⟨fuel + 2, by omega, ?_⟩
    rw [expand, hp]
    dsimp only
    rw [literalText?_escapedPiece]
    simp only [hs, Bool.false_eq_true, if_false, hlast, visit_path, visit_isDir, hdir]
    refine if_congr ?_ rfl rfl
    by_cases hempty : c = ""
    · subst hempty
      have hPdot : P ≠ "." := fun h => hchild h rfl
      simp [child_of_ne hPdot, exists?_join_empty ht hcwd hP, hdir]
    · by_cases hdots : c = "." ∨ c = ".."
      · rcases hdots with rfl | rfl <;> simp
      · obtain ⟨hdot, hdotdot⟩ := not_or.1 hdots
        simp [hempty, hdot, hdotdot, exists?_child_name ht hcwd hP ⟨hempty, hdot, hdotdot, hc⟩ hd]

theorem getElem?_of_drop {i : Nat} {p : GlobPattern} {rest : List GlobPattern}
    (h : w.pieces.drop i = p :: rest) : w.pieces[i]? = some p := by
  rw [← List.head?_drop, h]
  rfl

theorem isLast_of_drop {i : Nat} {p : GlobPattern} {rest : List GlobPattern}
    (h : w.pieces.drop i = p :: rest) : w.isLast i = rest.isEmpty := by
  have hlen := congrArg List.length h
  rw [List.length_drop, List.length_cons] at hlen
  unfold isLast
  cases rest with
  | nil => simp only [List.length_nil] at hlen; simp; omega
  | cons q rest => simp only [List.length_cons] at hlen; simp; omega

theorem drop_succ_of_drop {i : Nat} {p : GlobPattern} {rest : List GlobPattern}
    (h : w.pieces.drop i = p :: rest) : w.pieces.drop (i + 1) = rest := by
  have h' := congrArg (List.drop 1) h
  rw [List.drop_drop] at h'
  exact h'

/-- **The listing.** The star piece as the last piece, below a directory, finds the names the
directory lists that it accepts, each joined onto the path. -/
theorem expand_starPiece (ht : w.tree.Valid) (hcwd : w.tree.get? w.cwd = some .directory)
    {i : Nat} {suffix : String} (hp : w.pieces[i]? = some (starPiece suffix))
    (hlast : w.isLast i = true) (hreq : w.requireDir = false) {P : String} (hP : P ≠ "")
    (hPdot : P ≠ ".") {d : Location} (hd : w.tree.walkText w.cwd P = .ok d) (fuel : Nat) :
    w.expand (fuel + 3) i (w.visit P) =
      ((sortNames (w.tree.childNames d)).filter (starPiece suffix).accepts).map
        (Path.join P) := by
  have hlook := lookup_of_walkText ht hcwd hP hd
  have hdir := (isDirectory?_iff_walkText ht hcwd hP).2 ⟨d, hd⟩
  rw [expand, hp]
  dsimp only
  simp only [literalText?_starPiece, visit_path, visit_isDir, hdir, readDir_of_lookup hlook,
    Bool.not_true, Bool.false_eq_true, if_false, startsWithDot_starPiece, List.append_nil]
  rw [← flatMap_ite_singleton]
  refine List.flatMap_congr fun name hmem => ?_
  rw [visitAt_child hp rfl hP (validName_of_mem_childNames ht.named (mem_sortNames.1 hmem)), hlast,
    child_of_ne hPdot]
  simp [hreq]

/-- **Walking escaped names.** From a path below which the pieces left are escaped names and
then the star piece, the walk finds what walking the tree by those names finds: the names that
the star piece accepts in the directory reached, each joined onto the path with the names
joined on; and nothing when the walk fails. -/
theorem expand_escaped (ht : w.tree.Valid) (hcwd : w.tree.get? w.cwd = some .directory)
    (hreq : w.requireDir = false) {suffix : String} (rest : List String) {i : Nat} {P : String}
    {fuel : Nat} (hdrop : w.pieces.drop i = rest.map escapedPiece ++ [starPiece suffix])
    (hsep : ∀ c ∈ rest, '/' ∉ c.toList) (hP : P ≠ "") (hPdot : P ≠ ".")
    (hfuel : 3 * rest.length + 3 ≤ fuel) :
    w.expand fuel i (w.visit P) =
      match (w.tree.walkText w.cwd P).bind fun d => w.tree.walk d rest with
      | .ok d => ((sortNames (w.tree.childNames d)).filter (starPiece suffix).accepts).map
          (Path.join (rest.foldl child P))
      | .error _ => [] := by
  -- the induction is on the names left; the path grows by one name at each step
  induction rest generalizing i P fuel with
  | nil =>
    simp only [List.map_nil, List.nil_append] at hdrop
    have hp := getElem?_of_drop hdrop
    obtain ⟨fuel, rfl⟩ : ∃ f, fuel = f + 3 := ⟨fuel - 3, by simp at hfuel; omega⟩
    cases hd : w.tree.walkText w.cwd P with
    | ok d =>
      rw [expand_starPiece ht hcwd hp (by simp [isLast_of_drop hdrop]) hreq hP hPdot hd]
      rfl
    | error e =>
      exact expand_of_not_isDirectory ht hcwd hp (Or.inr ⟨suffix, rfl⟩) hP hPdot
        (isDirectory?_of_walkText_error ht hcwd hP hd) _
  | cons c rest ih =>
    simp only [List.map_cons, List.cons_append] at hdrop
    have hp := getElem?_of_drop hdrop
    have hc := hsep c List.mem_cons_self
    cases hd : w.tree.walkText w.cwd P with
    | error e =>
      exact expand_of_not_isDirectory ht hcwd hp (Or.inl ⟨c, hc, rfl⟩) hP hPdot
        (isDirectory?_of_walkText_error ht hcwd hP hd) _
    | ok d =>
      obtain ⟨F, rfl⟩ : ∃ F, fuel = F + 3 := ⟨fuel - 3, by simp at hfuel; omega⟩
      obtain ⟨F', hF, hstep⟩ :=
        expand_escaped_step ht hcwd hp (by simp [isLast_of_drop hdrop]) hc hP (absurd · hPdot) hd F
      have hnext : w.expand F' (i + 1) (w.visit (Path.join P c)) = _ :=
        ih (drop_succ_of_drop hdrop) (fun c' h => hsep c' (List.mem_cons_of_mem _ h))
          (join_ne_empty hP c) (join_ne_dot hP hPdot hc) (by simp at hfuel; omega)
      rw [walkText_join hP hc, hd, Except.bind] at hnext
      rw [hstep, child_of_ne hPdot, hnext, List.foldl_cons, child_of_ne hPdot]
      exact walk_cons_of_present hc _

/-- **Leading `.` names.** From the working directory, pieces `.` keep the walk there, each for
three units of fuel. -/
theorem expand_dots (ht : w.tree.Valid) (hcwd : w.tree.get? w.cwd = some .directory) (k : Nat)
    {i : Nat} {rest : List GlobPattern} (hrest : rest ≠ [])
    (hdrop : w.pieces.drop i = List.replicate k (escapedPiece ".") ++ rest) (fuel : Nat) :
    ∃ fuel', fuel ≤ fuel' ∧
      w.expand (fuel + 3 * k) i (w.visit ".") = w.expand fuel' (i + k) (w.visit ".") := by
  induction k generalizing i fuel with
  | zero => exact ⟨fuel, le_refl fuel, rfl⟩
  | succ k ih =>
    rw [List.replicate_succ, List.cons_append] at hdrop
    have hlast : w.isLast i = false := by
      rw [isLast_of_drop hdrop]
      cases k <;> simp [hrest]
    obtain ⟨f₁, hle₁, hstep⟩ := expand_escaped_step ht hcwd (getElem?_of_drop hdrop) hlast
      (by decide) (by decide) (fun _ => by decide) walkText_dot (fuel + 3 * k)
    obtain ⟨f₂, hle₂, hrec⟩ := ih (drop_succ_of_drop hdrop) (f₁ - 3 * k)
    refine ⟨f₂, by omega, ?_⟩
    rw [show fuel + 3 * (k + 1) = fuel + 3 * k + 3 by omega, hstep, if_pos (Or.inr (Or.inl rfl)),
      child_dot, show f₁ = f₁ - 3 * k + 3 * k by omega, hrec, Nat.add_right_comm, Nat.add_assoc]

theorem foldl_child_dots (k : Nat) (rest : List String) :
    (List.replicate k "." ++ rest).foldl child "." = rest.foldl child "." := by
  induction k with
  | zero => rfl
  | succ k ih => rw [List.replicate_succ, List.cons_append, List.foldl_cons, child_dot, ih]

end Walk

/-! ## The listing -/

/-- A directory text that the walk reads the way the tree does: not empty, and not starting
with a `.` name, below which the walk would look up an empty name as the empty path. -/
def Plain (dir : String) : Prop := dir ≠ "" ∧ (chunks dir).head? ≠ some "."

/-- The text the walk has built for the directory when it gets there: the names of the
directory text after its root joined on one by one, the first name of a relative text
standing alone. -/
def listingBase (dir : String) : String := (dirPieces dir).foldl Walk.child (scopeOf dir)

theorem chunks_eq_pieces (rest : String) :
    chunks rest = pieces rest ∨ chunks rest = pieces rest ++ [""] := by
  unfold pieces
  split
  · rename_i others h
    right
    have h' := congrArg List.reverse h
    rw [List.reverse_reverse] at h'
    rw [show chunks rest = Path.chunks rest from rfl, h']
    simp
  · left
    exact (List.reverse_reverse _).symm

theorem chunks_of_relative {dir : String} (h : rootLength dir = 0) :
    chunks dir = dirPieces dir ∨ chunks dir = dirPieces dir ++ [""] := by
  have hbody : String.ofList (dir.toList.drop (rootLength dir)) = dir := by
    rw [h, List.drop_zero, String.ofList_toList]
  unfold dirPieces
  rw [hbody]
  exact chunks_eq_pieces dir

theorem startsWith_of_absolute {dir : String} (h : rootLength dir ≠ 0) :
    dir.startsWith "/" = true := by
  unfold rootLength at h
  split at h
  · assumption
  · exact absurd rfl h

theorem chunks_of_absolute {dir : String} (h : rootLength dir ≠ 0) :
    chunks dir = "" :: dirPieces dir ∨ chunks dir = "" :: (dirPieces dir ++ [""]) := by
  have hstart := startsWith_of_absolute h
  obtain ⟨body, hbody⟩ := (startsWith_iff dir).1 hstart
  have hone : rootLength dir = 1 := by simp [rootLength, hstart]
  have hchunks : chunks dir = "" :: chunks (String.ofList body) := by
    rw [chunks_of_toList_eq (A := []) (B := body) (by rw [← hbody]; rfl)]
    rfl
  unfold dirPieces
  rw [hchunks, hone, ← hbody]
  simp only [List.singleton_append, List.drop_one, List.tail_cons]
  rcases chunks_eq_pieces (String.ofList body) with h' | h' <;> rw [h'] <;> simp

theorem sep_not_mem_dirPieces {dir c : String} (hc : c ∈ dirPieces dir) : '/' ∉ c.toList := by
  refine not_mem_of_mem_chunks (?_ : c ∈ chunks (String.ofList (dir.toList.drop (rootLength dir))))
  unfold dirPieces at hc
  rcases chunks_eq_pieces (String.ofList (dir.toList.drop (rootLength dir))) with h | h <;>
    rw [h] <;> simp [hc]

/-- Walking a directory text walks the names after its root from where the text starts. -/
theorem walkText_eq_dirPieces {t : FileTree} {cwd : Location} (dir : String) :
    t.walkText cwd dir = t.walk (startOf cwd dir) (dirPieces dir) := by
  by_cases h : rootLength dir = 0
  · exact walkText_of_chunks (chunks_of_relative h)
  · rw [walkText_of_chunks (l := "" :: dirPieces dir) (by simpa using chunks_of_absolute h)]
    simp [walk]

theorem head?_chunks_of_relative {dir : String} (h : rootLength dir = 0) (hne : dir ≠ "") :
    (chunks dir).head? ≠ some "" := by
  have hstart : dir.startsWith "/" = false := by
    rw [Bool.eq_false_iff]
    intro hs
    simp [rootLength, hs] at h
  obtain ⟨x, xs, hx⟩ : ∃ x xs, dir.toList = x :: xs :=
    List.exists_cons_of_ne_nil fun hnil =>
      hne (String.toList_inj.1 (by rw [hnil, String.toList_empty]))
  have hxsep : x ≠ '/' := by
    intro hxs
    rw [Bool.eq_false_iff] at hstart
    exact hstart ((startsWith_iff dir).2 ⟨xs, by rw [hx, hxs]; rfl⟩)
  obtain ⟨first, others, hsplit⟩ := List.exists_cons_of_ne_nil (List.splitOn_ne_nil '/' xs)
  simp [chunks, Path.chunks, hx, List.splitOn_cons_eq_if_modifyHead, hxsep, hsplit,
    ← String.toList_inj]

theorem startOf_of_relative {cwd : Location} {dir : String} (h : rootLength dir = 0) :
    startOf cwd dir = cwd := by
  have hs : dir.startsWith "/" = false := by
    rw [Bool.eq_false_iff]
    intro hs
    simp [rootLength, hs] at h
  simp [startOf, hs]

theorem startOf_of_absolute {cwd : Location} {dir : String} (h : rootLength dir ≠ 0) :
    startOf cwd dir = [] := by
  simp [startOf, startsWith_of_absolute h]

/-- A plain relative directory text starts with a name that is neither empty nor `.`. -/
theorem relative_pieces {dir : String} (hroot : rootLength dir = 0) (hplain : Plain dir) :
    ∃ c rest, dirPieces dir = c :: rest ∧ c ≠ "" ∧ c ≠ "." ∧ '/' ∉ c.toList := by
  obtain ⟨c, rest, hpieces⟩ : ∃ c rest, dirPieces dir = c :: rest := by
    refine List.exists_cons_of_ne_nil fun hnil => hplain.1 (eq_empty_of_chunks ?_)
    rcases chunks_of_relative hroot with h | h
    · have h' := h.trans hnil
      simp [chunks, Path.chunks, List.splitOn_ne_nil] at h'
    · rw [h, hnil]
      rfl
  have hhead : (chunks dir).head? = some c := by
    rcases chunks_of_relative hroot with h | h <;> rw [h, hpieces] <;> rfl
  exact ⟨c, rest, hpieces, fun h => head?_chunks_of_relative hroot hplain.1 (h ▸ hhead),
    fun h => hplain.2 (h ▸ hhead), sep_not_mem_dirPieces (by rw [hpieces]; exact List.mem_cons_self)⟩

@[simp] theorem listingWalk_tree {t : FileTree} {cwd : Location} {dir suffix : String} :
    (listingWalk t cwd dir suffix).tree = t := rfl

@[simp] theorem listingWalk_cwd {t : FileTree} {cwd : Location} {dir suffix : String} :
    (listingWalk t cwd dir suffix).cwd = cwd := rfl

theorem walkText_root {t : FileTree} {cwd : Location} : t.walkText cwd "/" = .ok [] := by
  rw [walkText, show chunks "/" = ["", ""] by decide, startOf,
    if_pos ((startsWith_iff "/").2 ⟨[], by decide⟩)]
  simp [walk]

/-- The text built for a plain directory text is its start, the root or its first name, with
the other names joined on; it has the directory text's components and walks where it walks. -/
theorem listingBase_eq {dir : String} (hplain : Plain dir) :
    ∃ P rest, listingBase dir = rest.foldl Path.join P ∧ P ≠ "" ∧ (∀ c ∈ rest, '/' ∉ c.toList) ∧
      Path.components dir = Path.components P ++ Path.chunkComponents rest ∧
      ∀ (t : FileTree) (cwd : Location),
        t.walkText cwd dir = (t.walkText cwd P).bind fun d => t.walk d rest := by
  unfold listingBase
  by_cases hroot : rootLength dir = 0
  · -- a relative text starts with its first name
    obtain ⟨c, rest, hpieces, hcempty, hcdot, hc⟩ := relative_pieces hroot hplain
    have hsep : ∀ c' ∈ rest, '/' ∉ c'.toList := fun c' h =>
      sep_not_mem_dirPieces (by rw [hpieces]; exact List.mem_cons_of_mem _ h)
    have hcchunks : chunks c = [] ++ [c] := chunks_of_not_mem hc
    refine ⟨c, rest, ?_, hcempty, hsep, ?_, fun t cwd => ?_⟩
    · rw [show scopeOf dir = "." by simp [scopeOf, hroot], hpieces, List.foldl_cons, Walk.child_dot,
        Walk.foldl_child hcempty hcdot hsep]
    · rw [components_of_chunks hcempty hcchunks, show Path.chunkComponents [] = [] from rfl,
        List.append_nil]
      rcases chunks_of_relative hroot with h | h <;> rw [hpieces] at h
      · rw [components_of_chunks hplain.1 h]
      · rw [List.cons_append] at h
        rw [components_of_chunks hplain.1 h, chunkComponents_append]
        simp [Path.chunkComponents]
    · rw [walkText_eq_dirPieces, hpieces, startOf_of_relative hroot,
        show t.walk cwd (c :: rest) = (t.walk cwd [c]).bind (fun d => t.walk d rest) from
          walk_append cwd [c] rest,
        walkText_of_chunks (Or.inl hcchunks), startOf_name hc]
      rfl
  · -- an absolute text starts at the root
    have hsep : ∀ c ∈ dirPieces dir, '/' ∉ c.toList := fun c h => sep_not_mem_dirPieces h
    refine ⟨"/", dirPieces dir, ?_, by decide, hsep, ?_, fun t cwd => ?_⟩
    · rw [show scopeOf dir = "/" by simp [scopeOf, hroot], Walk.foldl_child (by decide) (by decide) hsep]
    · rw [components_of_chunks (by decide) (show chunks "/" = "" :: [""] by decide)]
      rcases chunks_of_absolute hroot with h | h
      · rw [components_of_chunks hplain.1 h]
        simp [Path.chunkComponents]
      · rw [components_of_chunks hplain.1 h, chunkComponents_append]
        simp [Path.chunkComponents]
    · rw [walkText_eq_dirPieces, startOf_of_absolute hroot, walkText_root]
      rfl

/-- A directory text the walk reads the way the tree does past its leading `.` names: absolute,
or relative with a name that is neither empty nor `.` after the `.` names it starts with. A
plain text has no leading `.` name; `./dir` and `.` followed by names are listable too. -/
def Listable (dir : String) : Prop :=
  rootLength dir ≠ 0 ∨
    ∃ k c rest, dirPieces dir = List.replicate k "." ++ c :: rest ∧ c ≠ "" ∧ c ≠ "."

theorem Plain.listable {dir : String} (hplain : Plain dir) : Listable dir := by
  by_cases hroot : rootLength dir = 0
  · obtain ⟨c, rest, hpieces, hcempty, hcdot, -⟩ := relative_pieces hroot hplain
    exact Or.inr ⟨0, c, rest, hpieces, hcempty, hcdot⟩
  · exact Or.inl hroot

theorem Listable.ne_empty {dir : String} (hlist : Listable dir) : dir ≠ "" := by
  rintro rfl
  rcases hlist with h | ⟨k, c, rest, h, -⟩
  · exact h rfl
  · have hnil : dirPieces "" = [] := pieces_empty
    rw [hnil] at h
    simp at h

/-- An absolute directory text is plain: it starts with the empty name of its root. -/
theorem plain_of_absolute {dir : String} (hroot : rootLength dir ≠ 0) : Plain dir := by
  have hne : dir ≠ "" := by
    rintro rfl
    exact hroot rfl
  refine ⟨hne, ?_⟩
  rcases chunks_of_absolute hroot with h | h <;> rw [h] <;> simp

theorem walk_dots {t : FileTree} (k : Nat) (d : Location) :
    t.walk d (List.replicate k ".") = .ok d := by
  induction k with
  | zero => rfl
  | succ k ih => simpa [List.replicate_succ, walk] using ih

/-- A relative text walks as the names after its leading `.` names. -/
theorem walkText_of_dots {t : FileTree} {cwd : Location} {dir c : String} {k : Nat}
    {rest : List String} (hroot : rootLength dir = 0)
    (hpieces : dirPieces dir = List.replicate k "." ++ c :: rest) :
    t.walkText cwd dir = t.walk cwd (c :: rest) := by
  rw [walkText_eq_dirPieces, hpieces, startOf_of_relative hroot, walk_append, walk_dots]
  rfl

/-- The text built for a listable directory text is its start with the other names joined on,
the leading `.` names left out, and it walks where the directory text walks. -/
theorem listingBase_of_listable {dir : String} (hlist : Listable dir) :
    ∃ P rest, listingBase dir = rest.foldl Path.join P ∧ P ≠ "" ∧ (∀ c ∈ rest, '/' ∉ c.toList) ∧
      ∀ (t : FileTree) (cwd : Location),
        t.walkText cwd dir = (t.walkText cwd P).bind fun d => t.walk d rest := by
  by_cases hroot : rootLength dir = 0
  · obtain ⟨k, c, rest, hpieces, hcempty, hcdot⟩ := hlist.resolve_left (not_not.2 hroot)
    have hsep : ∀ c' ∈ c :: rest, '/' ∉ c'.toList := fun c' h =>
      sep_not_mem_dirPieces (by rw [hpieces]; exact List.mem_append_right _ h)
    have hc := hsep c List.mem_cons_self
    refine ⟨c, rest, ?_, hcempty, fun c' h => hsep c' (List.mem_cons_of_mem _ h), fun t cwd => ?_⟩
    · rw [listingBase, show scopeOf dir = "." by simp [scopeOf, hroot], hpieces,
        Walk.foldl_child_dots, List.foldl_cons, Walk.child_dot,
        Walk.foldl_child hcempty hcdot fun c' h => hsep c' (List.mem_cons_of_mem _ h)]
    · rw [walkText_of_dots hroot hpieces, show c :: rest = [c] ++ rest from rfl, walk_append,
        walkText_of_chunks (Or.inl (chunks_of_not_mem hc)), startOf_name hc]
  · obtain ⟨P, rest, heq, hP, hsep, -, hwalk⟩ := listingBase_eq (plain_of_absolute hroot)
    exact ⟨P, rest, heq, hP, hsep, hwalk⟩

theorem listingBase_ne_empty {dir : String} (hlist : Listable dir) : listingBase dir ≠ "" := by
  obtain ⟨P, rest, heq, hP, -, -⟩ := listingBase_of_listable hlist
  rw [heq]
  exact foldl_join_ne_empty hP rest

theorem components_listingBase {dir : String} (hplain : Plain dir) :
    Path.components (listingBase dir) = Path.components dir := by
  obtain ⟨P, rest, heq, hP, hsep, hcomp, -⟩ := listingBase_eq hplain
  rw [heq, components_foldl_join hP hsep, hcomp]

theorem walkText_listingBase {dir : String} (hlist : Listable dir) (t : FileTree) (cwd : Location) :
    t.walkText cwd (listingBase dir) = t.walkText cwd dir := by
  obtain ⟨P, rest, heq, hP, hsep, hwalk⟩ := listingBase_of_listable hlist
  rw [heq, walkText_foldl_join hP hsep, hwalk]

/-- A name joined onto the text built for a plain directory text is, as a path, the name joined
onto the directory text. -/
theorem sameAs_join_listingBase {dir n : String} (hplain : Plain dir) (hn : '/' ∉ n.toList) :
    Path.sameAs (Path.join (listingBase dir) n) (Path.join dir n) = true := by
  rw [Path.sameAs, components_join (listingBase_ne_empty hplain.listable) hn,
    components_listingBase hplain,
    components_join hplain.1 hn]
  exact beq_self_eq_true _

/-- **The listing.** For a listable directory text, a listing pattern finds the names that end in
the suffix in the directory the text names, in the order of their names, each joined onto the
text the walk has built for the directory; and nothing when the text names no directory. -/
theorem paths_listing_of_listable {t : FileTree} {cwd : Location} (ht : t.Valid)
    (hcwd : t.get? cwd = some .directory) {dir suffix : String} (hlist : Listable dir)
    (hsuffix : '/' ∉ suffix.toList) :
    paths t cwd (listingPattern dir suffix) = .ok
      (match t.walkText cwd dir with
        | .ok d => ((sortNames (t.childNames d)).filter (starPiece suffix).accepts).map
            (Path.join (listingBase dir))
        | .error _ => []) := by
  rw [paths_listing t cwd dir suffix hsuffix]
  refine congrArg Except.ok ?_
  by_cases hroot : rootLength dir = 0
  swap
  · -- an absolute text: every name is joined on below the root
    have hsep : ∀ c ∈ dirPieces dir, '/' ∉ c.toList := fun c hc => sep_not_mem_dirPieces hc
    rw [walkText_eq_dirPieces, listingBase, show scopeOf dir = "/" by simp [scopeOf, hroot],
      Walk.expand_escaped ht hcwd rfl (dirPieces dir)
        (show (listingWalk t cwd dir suffix).pieces.drop 0 =
          (dirPieces dir).map escapedPiece ++ [starPiece suffix] from rfl) hsep
        (by decide) (by decide) (by omega), walkText_root, startOf_of_absolute hroot]
    rfl
  -- a relative text: past its leading `.` names, its first name is read below the working
  -- directory, standing alone
  obtain ⟨k, c, rest, hpieces, hcempty, hcdot⟩ := hlist.resolve_left (not_not.2 hroot)
  have hsep : ∀ c' ∈ c :: rest, '/' ∉ c'.toList := fun c' h =>
    sep_not_mem_dirPieces (by rw [hpieces]; exact List.mem_append_right _ h)
  have hc := hsep c List.mem_cons_self
  have hdrop₀ : (listingWalk t cwd dir suffix).pieces.drop 0 = List.replicate k (escapedPiece ".") ++
      escapedPiece c :: (rest.map escapedPiece ++ [starPiece suffix]) := by
    simp [listingWalk, hpieces, List.map_replicate]
  have hdrop : (listingWalk t cwd dir suffix).pieces.drop k =
      escapedPiece c :: (rest.map escapedPiece ++ [starPiece suffix]) := by
    rw [List.drop_zero] at hdrop₀
    rw [hdrop₀, List.drop_left' List.length_replicate]
  -- fuel for the leading dots, for the name after them and for the walk of the rest
  obtain ⟨F, hF, hFle⟩ : ∃ F, 4 * ((dirPieces dir).length + 1 + t.entries.length + 4) = F + 3 * k ∧
      3 * rest.length + 6 ≤ F := by
    refine ⟨4 * ((dirPieces dir).length + 1 + t.entries.length + 4) - 3 * k, ?_, ?_⟩ <;>
      simp only [hpieces, List.length_append, List.length_replicate, List.length_cons] <;> omega
  obtain ⟨f₁, hle₁, hdots⟩ := Walk.expand_dots ht hcwd k (by simp) hdrop₀ F
  obtain ⟨f₂, hle₂, hstep⟩ := Walk.expand_escaped_step ht hcwd (Walk.getElem?_of_drop hdrop)
    (by simp [Walk.isLast_of_drop hdrop]) hc (by decide) (fun _ => hcempty) walkText_dot (f₁ - 3)
  have hwalkc : t.walkText cwd c = t.walk cwd [c] := by
    rw [walkText_of_chunks (Or.inl (chunks_of_not_mem hc)), startOf_name hc]
  rw [hF, show scopeOf dir = "." by simp [scopeOf, hroot], hdots, Nat.zero_add,
    show f₁ = f₁ - 3 + 3 by omega, hstep, Walk.child_dot,
    Walk.expand_escaped ht hcwd rfl rest (Walk.drop_succ_of_drop hdrop)
      (fun c' h => hsep c' (List.mem_cons_of_mem _ h)) hcempty hcdot (by omega)]
  simp only [listingWalk_tree, listingWalk_cwd]
  rw [hwalkc, walkText_of_dots hroot hpieces, listingBase,
    show scopeOf dir = "." by simp [scopeOf, hroot], hpieces, Walk.foldl_child_dots, List.foldl_cons,
    Walk.child_dot]
  exact walk_cons_of_present hc _

/-- The star piece accepts exactly the names that end in its suffix. -/
theorem starPiece_accepts_eq (suffix : String) :
    (starPiece suffix).accepts = fun n => suffix.toList.isSuffixOf n.toList := by
  funext n
  rw [Bool.eq_iff_iff, accepts_starPiece, List.isSuffixOf_iff_suffix]

end GlobWalk

/-- What the glob crate documents of a pattern that lists one directory, an escaped directory
text joined with `*` and an escaped ending: `Pattern::escape` makes an escaped text match itself
and nothing else, so the pattern always reads; `*` matches any sequence of characters in a name,
a leading dot included; and `glob` yields the paths it finds in alphabetical order, each built
onto the directory as the walk spelled it. -/
class PatternSearch.Listing [PatternSearch] : Prop where
  /-- A listing pattern always reads. -/
  read : ∀ t cwd dir suffix, '/' ∉ suffix.toList →
    ∃ found, PatternSearch.paths t cwd (GlobWalk.listingPattern dir suffix) = .ok found
  /-- From a listable directory text, a listing pattern finds the names in the directory the text
  names that end in the suffix, in the order of their names, each joined onto the text the walk
  built for the directory; and nothing when the text names no directory. -/
  listing : ∀ {t : FileTree} {cwd : Location}, t.Valid → t.get? cwd = some .directory →
    ∀ {dir suffix : String}, GlobWalk.Listable dir → '/' ∉ suffix.toList →
    PatternSearch.paths t cwd (GlobWalk.listingPattern dir suffix) = .ok
      (match t.walkText cwd dir with
        | .ok d => ((sortNames (t.childNames d)).filter fun n =>
            suffix.toList.isSuffixOf n.toList).map (Path.join (GlobWalk.listingBase dir))
        | .error _ => [])

/-- The walk reads a listing pattern as the crate documents. -/
instance : PatternSearch.Listing where
  read t cwd dir suffix h := ⟨_, GlobWalk.paths_listing t cwd dir suffix h⟩
  listing ht hcwd _ _ hlist hsuffix := by
    rw [← GlobWalk.starPiece_accepts_eq]
    exact GlobWalk.paths_listing_of_listable ht hcwd hlist hsuffix

end ReleaseBuild
