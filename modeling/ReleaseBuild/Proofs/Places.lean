import ReleaseBuild.Files
/-!
# Where a path leads, read by its names

A path text names a location of the file tree through its names alone. Empty names and `.`
stay where they are, `..` goes up one level and any other name goes down into it; a path that
starts with `/` is read from the root and any other from the working directory
(`FileTree.place`). Every name read passes through a location, and `FileTree.trace` lists them
all, the start and the end included. The tree's own lookup reads a path the same way and only
checks on its way that each location passed through is a directory, so where a lookup ends is
known from the text of the path (`Proofs.TreeFrame`).

A name an entry of a real directory can have (`FileTree.ValidName`) is not empty, neither `.`
nor `..`, and holds no separator. This module gives the reading of the paths a release builds:

* a valid name joined onto a path leads one level below it (`place_join`) and passes through
  nothing else (`mem_trace_join`);
* the text a path's parent is made of is a cut of the path between two of its names
  (`Path.parent_eq_take`), so the parent passes through no location the path does not
  (`mem_trace_of_parent`): creating a directory with its parents makes directories only along
  the path's own trace;
* the file name of a path is one valid name (`validName_of_fileName`), and reading a path from
  a location of valid names passes only through locations of valid names (`valid_of_mem_trace`).
-/

set_option autoImplicit false

namespace ReleaseBuild

theorem Path.joinAll_cons (base n : String) (rest : List String) :
    Path.joinAll base (n :: rest) = Path.joinAll (Path.join base n) rest := rfl

namespace FileTree

/-- A name an entry of a directory can have: not empty, neither `.` nor `..`, and without a
separator. -/
def ValidName (n : String) : Prop := n ≠ "" ∧ n ≠ "." ∧ n ≠ ".." ∧ '/' ∉ n.toList

instance : DecidablePred ValidName := fun n =>
  inferInstanceAs (Decidable (n ≠ "" ∧ n ≠ "." ∧ n ≠ ".." ∧ '/' ∉ n.toList))

/-- One name of a path, read without looking at the tree: an empty name and `.` stay, `..`
goes to the parent and any other name goes into it. -/
def descend (acc : Location) (c : String) : Location :=
  if c == "" || c == "." then acc else if c == ".." then acc.dropLast else acc ++ [c]

/-- Where reading a path starts: the root for a path that starts with `/`, the working
directory for any other. -/
def startOf (cwd : Location) (path : String) : Location :=
  if path.startsWith "/" then [] else cwd

/-- The location a path names, read by its names alone. -/
def place (cwd : Location) (path : String) : Location :=
  (chunks path).foldl descend (startOf cwd path)

/-- The locations that reading a path passes through, from its start to its end. -/
def trace (cwd : Location) (path : String) : List Location :=
  (chunks path).scanl descend (startOf cwd path)

/-! ## Reading one name -/

@[simp] theorem descend_empty (acc : Location) : descend acc "" = acc := rfl

theorem descend_of_validName {n : String} (h : ValidName n) (acc : Location) :
    descend acc n = acc ++ [n] := by
  obtain ⟨hempty, hdot, hdots, -⟩ := h
  simp [descend, hempty, hdot, hdots]

/-- Reading a name without separators from a location of valid names keeps every name valid. -/
theorem valid_descend {acc : Location} {c : String} (hacc : ∀ n ∈ acc, ValidName n)
    (hc : '/' ∉ c.toList) : ∀ n ∈ descend acc c, ValidName n := by
  unfold descend
  by_cases htriv : (c == "" || c == ".") = true
  · simpa [htriv] using hacc
  · by_cases hup : (c == "..") = true
    · rw [if_neg htriv, if_pos hup]
      exact fun n hn => hacc n ((List.dropLast_sublist acc).subset hn)
    · rw [if_neg htriv, if_neg hup]
      simp only [Bool.or_eq_true, beq_iff_eq, not_or] at htriv
      simp only [beq_iff_eq] at hup
      intro n hn
      rcases List.mem_append.1 hn with hn | hn
      · exact hacc n hn
      · rw [List.mem_singleton.1 hn]
        exact ⟨htriv.1, htriv.2, hup, hc⟩

/-! ## The names of a path -/

theorem not_mem_of_mem_splitOn {cs l : List Char} (h : l ∈ cs.splitOn '/') : '/' ∉ l := by
  induction cs generalizing l with
  | nil => simp_all
  | cons c cs ih =>
    rw [List.splitOn_cons_eq_if_modifyHead] at h
    by_cases hc : c = '/'
    · simp only [hc, beq_self_eq_true, if_true, List.mem_cons] at h
      rcases h with rfl | h
      · simp
      · exact ih h
    · have hbeq : (c == '/') = false := by simpa using hc
      simp only [hbeq, Bool.false_eq_true, if_false] at h
      -- the first piece gains the character, the others are pieces of the rest
      obtain ⟨first, rest, hsplit⟩ := List.exists_cons_of_ne_nil (List.splitOn_ne_nil '/' cs)
      rw [hsplit, List.modifyHead_cons, List.mem_cons] at h
      rcases h with rfl | h
      · simp only [List.mem_cons, not_or]
        exact ⟨Ne.symm hc, ih (by simp [hsplit])⟩
      · exact ih (by simp [hsplit, h])

/-- No name of a path holds a separator. -/
theorem not_mem_of_mem_chunks {path c : String} (h : c ∈ chunks path) : '/' ∉ c.toList := by
  simp only [chunks, Path.chunks, List.mem_map] at h
  obtain ⟨l, hl, rfl⟩ := h
  simpa using not_mem_of_mem_splitOn hl

/-- A separator in a path parts its names into those before it and those after it. -/
theorem chunks_of_toList_eq {path : String} {A B : List Char} (h : path.toList = A ++ '/' :: B) :
    chunks path = chunks (String.ofList A) ++ chunks (String.ofList B) := by
  simp [chunks, Path.chunks, h, List.splitOn_append_cons_self]

/-- A text without separators is one name. -/
theorem chunks_of_not_mem {path : String} (h : '/' ∉ path.toList) : chunks path = [path] := by
  simp [chunks, Path.chunks, List.splitOn_eq_singleton h]

@[simp] theorem chunks_empty : chunks "" = [""] := rfl

/-! ## Reading a whole path -/

theorem locationOf_eq_place (path : String) : locationOf path = place [] path := by
  unfold locationOf place startOf
  split <;> rfl

theorem place_mem_trace (cwd : Location) (path : String) : place cwd path ∈ trace cwd path :=
  List.mem_of_getLast? List.getLast?_scanl

/-- Two paths that both start with a separator, or both do not, are read from the same
place. -/
theorem startOf_eq_of_head? {cwd : Location} {p q : String}
    (h : p.toList.head? = some '/' ↔ q.toList.head? = some '/') :
    startOf cwd p = startOf cwd q := by
  have hslash (s : String) : s.startsWith "/" = true ↔ s.toList.head? = some '/' := by
    simp only [String.startsWith_string_iff]
    cases s.toList <;> simp [eq_comm]
  unfold startOf
  by_cases hp : p.toList.head? = some '/'
  · rw [if_pos ((hslash p).2 hp), if_pos ((hslash q).2 (h.1 hp))]
  · rw [if_neg (mt (hslash p).1 hp), if_neg (mt (hslash q).1 (mt h.2 hp))]

theorem mem_scanl_append_left {a : Location} {l₁ l₂ : List String} {loc : Location}
    (h : loc ∈ l₁.scanl descend a) : loc ∈ (l₁ ++ l₂).scanl descend a := by
  rw [List.scanl_append]
  exact List.mem_append_left _ h

/-- An empty name read last passes through nothing new. -/
theorem mem_scanl_of_mem_append_empty {a : Location} {l : List String} {loc : Location}
    (h : loc ∈ (l ++ [""]).scanl descend a) : loc ∈ l.scanl descend a := by
  rw [List.scanl_append] at h
  simp only [List.scanl_cons, List.scanl_nil, descend_empty, List.tail_cons,
    List.mem_append, List.mem_singleton] at h
  rcases h with h | rfl
  · exact h
  · exact List.mem_of_getLast? List.getLast?_scanl

/-- Reading names without separators from a location of valid names passes only through
locations of valid names. -/
theorem valid_of_mem_scanl {a : Location} {l : List String} (ha : ∀ n ∈ a, ValidName n)
    (hl : ∀ c ∈ l, '/' ∉ c.toList) {loc : Location} (h : loc ∈ l.scanl descend a) :
    ∀ n ∈ loc, ValidName n := by
  induction l generalizing a with
  | nil =>
    simp only [List.scanl_nil, List.mem_singleton] at h
    exact h ▸ ha
  | cons c cs ih =>
    simp only [List.scanl_cons, List.mem_cons] at h
    rcases h with rfl | h
    · exact ha
    · exact ih (valid_descend ha (hl c (by simp))) (fun c' hc' => hl c' (by simp [hc'])) h

theorem valid_of_mem_trace {cwd : Location} (hcwd : ∀ n ∈ cwd, ValidName n) {path : String}
    {loc : Location} (h : loc ∈ trace cwd path) : ∀ n ∈ loc, ValidName n := by
  have hstart : ∀ n ∈ startOf cwd path, ValidName n := by
    unfold startOf
    split
    · simp
    · exact hcwd
  exact valid_of_mem_scanl hstart (fun c hc => not_mem_of_mem_chunks hc) h

theorem valid_place {cwd : Location} (hcwd : ∀ n ∈ cwd, ValidName n) (path : String) :
    ∀ n ∈ place cwd path, ValidName n :=
  valid_of_mem_trace hcwd (place_mem_trace cwd path)

/-! ## Joining a name -/

/-- The names of a path that is not empty with a name of any kind joined on: those of the path,
its empty last name dropped when it ends with a separator, then the name. -/
theorem join_chunks_of_ne {base n : String} (hbase : base ≠ "") (hsep : '/' ∉ n.toList)
    (cwd : Location) :
    ∃ l, chunks (Path.join base n) = l ++ [n] ∧ (chunks base = l ∨ chunks base = l ++ [""]) ∧
      startOf cwd (Path.join base n) = startOf cwd base := by
  have hname : chunks n = [n] := chunks_of_not_mem hsep
  have hrel : Path.isAbsolute n = false := by
    cases hcs : n.toList with
    | nil => simp [Path.isAbsolute, String.toList_eq_nil_iff.1 hcs]
    | cons c cs =>
      have hc : c ≠ '/' := fun hc => hsep (by simp [hcs, hc])
      simp [Path.isAbsolute, hcs, Ne.symm hc]
  -- a text that goes on after a non-empty one starts as it does
  have hhead (rest : List Char) : (base.toList ++ rest).head? = base.toList.head? := by
    rw [List.head?_append, Option.or_of_isSome (by simpa using hbase)]
  by_cases hslash : base.endsWith "/" = true
  · -- the separator ending the path is the one before the name
    have hjoin : Path.join base n = base ++ n := by simp [Path.join, hrel, hslash]
    obtain ⟨A, hA⟩ : ['/'] <:+ base.toList := by simpa [← String.endsWith_toSlice] using hslash
    replace hA := hA.symm
    have hjoined : (base ++ n).toList = A ++ '/' :: n.toList := by simp [hA]
    refine ⟨chunks (String.ofList A), ?_, Or.inr ?_, startOf_eq_of_head? ?_⟩
    · rw [hjoin, chunks_of_toList_eq hjoined, String.ofList_toList, hname]
    · rw [chunks_of_toList_eq hA]
      rfl
    · rw [hjoin, String.toList_append, hhead n.toList]
  · have hjoin : Path.join base n = base ++ "/" ++ n := by
      simp [Path.join, hrel, hslash, hbase]
    have hjoined : (base ++ "/" ++ n).toList = base.toList ++ '/' :: n.toList := by simp
    refine ⟨chunks base, ?_, Or.inl rfl, startOf_eq_of_head? ?_⟩
    · rw [hjoin, chunks_of_toList_eq hjoined, String.ofList_toList, String.ofList_toList, hname]
    · rw [hjoin, hjoined, hhead ('/' :: n.toList)]

/-- The names of a path with a valid name joined on: those of the path, its empty last
name dropped when it ends with a separator, then the name. -/
theorem join_chunks {n : String} (hn : ValidName n) (cwd : Location) (base : String) :
    ∃ l, chunks (Path.join base n) = l ++ [n] ∧ (chunks base = l ∨ chunks base = l ++ [""]) ∧
      startOf cwd (Path.join base n) = startOf cwd base := by
  obtain ⟨hempty, -, -, hsep⟩ := hn
  by_cases hbase : base = ""
  · -- joined onto nothing, the name stands alone and is read from the working directory
    subst hbase
    obtain ⟨c, cs, hcs⟩ := List.exists_cons_of_ne_nil (mt String.toList_eq_nil_iff.1 hempty)
    have hc : c ≠ '/' := fun hc => hsep (by simp [hcs, hc])
    have hjoin : Path.join "" n = n := by simp [Path.join, Path.isAbsolute, hcs, Ne.symm hc]
    refine ⟨[], by simpa [hjoin] using chunks_of_not_mem hsep, Or.inr rfl,
      startOf_eq_of_head? ?_⟩
    simp [hjoin, hcs, hc]
  · exact join_chunks_of_ne hbase hsep cwd

/-- **A joined name is one level down.** A valid name joined onto a path names the entry of
that name in the location the path names. -/
theorem place_join {n : String} (hn : ValidName n) (cwd : Location) (base : String) :
    place cwd (Path.join base n) = place cwd base ++ [n] := by
  obtain ⟨l, hjoin, hbase, hstart⟩ := join_chunks hn cwd base
  unfold place
  rw [hjoin, hstart, List.foldl_append, List.foldl_cons, List.foldl_nil, descend_of_validName hn]
  rcases hbase with hbase | hbase <;> simp [hbase]

/-- Reading a path with a valid name joined on passes through the locations the path passes
through, then the entry of that name. -/
theorem mem_trace_join {n : String} (hn : ValidName n) {cwd : Location} {base : String}
    {loc : Location} (h : loc ∈ trace cwd (Path.join base n)) :
    loc ∈ trace cwd base ∨ loc = place cwd base ++ [n] := by
  obtain ⟨l, hjoin, hbase, hstart⟩ := join_chunks hn cwd base
  have hplace := place_join hn cwd base
  unfold trace at h ⊢
  rw [hjoin, hstart, List.scanl_append] at h
  simp only [List.scanl_cons, List.scanl_nil, List.tail_cons, List.mem_append,
    List.mem_singleton] at h
  rcases h with h | rfl
  · left
    rcases hbase with hbase | hbase
    · rwa [hbase]
    · rw [hbase]
      exact mem_scanl_append_left h
  · right
    rw [← hplace]
    unfold place
    rw [hjoin, hstart, List.foldl_append]
    rfl

/-- Valid names joined on one after the other lead that many levels down. -/
theorem place_joinAll {names : List String} (hn : ∀ n ∈ names, ValidName n) (cwd : Location)
    (base : String) : place cwd (Path.joinAll base names) = place cwd base ++ names := by
  induction names generalizing base with
  | nil => simp [Path.joinAll]
  | cons n rest ih =>
    rw [Path.joinAll_cons, ih (fun n' hn' => hn n' (by simp [hn'])), place_join (hn n (by simp))]
    simp

/-- Reading a path with valid names joined on passes through the locations the path passes
through, then one level down for each name. -/
theorem mem_trace_joinAll {names : List String} (hn : ∀ n ∈ names, ValidName n) {cwd : Location}
    {base : String} {loc : Location} (h : loc ∈ trace cwd (Path.joinAll base names)) :
    loc ∈ trace cwd base ∨ ∃ k, 0 < k ∧ k ≤ names.length ∧ loc = place cwd base ++ names.take k := by
  induction names generalizing base with
  | nil => exact Or.inl h
  | cons n rest ih =>
    have hvalid : ValidName n := hn n (by simp)
    rw [Path.joinAll_cons] at h
    rcases ih (fun n' hn' => hn n' (by simp [hn'])) h with h | ⟨k, hk, hlen, rfl⟩
    · rcases mem_trace_join hvalid h with h | rfl
      · exact Or.inl h
      · exact Or.inr ⟨1, by omega, by simp, by simp⟩
    · -- `k` levels below the joined name are `k + 1` levels below the path
      refine Or.inr ⟨k + 1, by omega, by simpa using hlen, ?_⟩
      rw [place_join hvalid]
      simp

/-- With two names joined on, the path passes through the base's locations, then one and two
levels below it. -/
theorem mem_trace_joinAll_pair {a b : String} (ha : ValidName a) (hb : ValidName b)
    {cwd : Location} {base : String} {loc : Location}
    (h : loc ∈ trace cwd (Path.joinAll base [a, b])) :
    loc ∈ trace cwd base ∨ loc = place cwd base ++ [a] ∨ loc = place cwd base ++ [a, b] := by
  rcases mem_trace_joinAll (by simp [ha, hb]) h with h | ⟨k, hk, hlen, rfl⟩
  · exact Or.inl h
  · simp only [List.length_cons, List.length_nil] at hlen
    rcases k with _ | _ | _ | k
    · omega
    · exact Or.inr (Or.inl rfl)
    · exact Or.inr (Or.inr rfl)
    · omega

end FileTree

/-! ## The parent of a path -/

namespace Path

/-- A cut of a path's characters after the first `j` that falls between two of its names: at
the start, at the end or past it, or next to a separator. -/
def Cut (cs : List Char) (j : Nat) : Prop :=
  j = 0 ∨ cs.length ≤ j ∨ cs[j]? = some '/' ∨ (0 < j ∧ cs[j - 1]? = some '/')

theorem Cut.take_of_le {cs : List Char} {j k : Nat} (h : Cut cs j) (hjk : j ≤ k) :
    Cut (cs.take k) j := by
  rcases h with h | h | h | ⟨hpos, h⟩
  · exact Or.inl h
  · exact Or.inr (Or.inl (by simp only [List.length_take]; omega))
  · by_cases hj : j < k
    · exact Or.inr (Or.inr (Or.inl (by rw [List.getElem?_take_of_lt hj]; exact h)))
    · exact Or.inr (Or.inl (by simp only [List.length_take]; omega))
  · exact Or.inr (Or.inr (Or.inr ⟨hpos, by rw [List.getElem?_take_of_lt (by omega)]; exact h⟩))

/-- A cut of the part before a cut is a cut of the whole. -/
theorem Cut.trans {cs : List Char} {cut j : Nat} (hcut : Cut cs cut) (h : Cut (cs.take cut) j) :
    Cut cs (min j cut) := by
  rcases h with h | h | h | ⟨hpos, h⟩
  · exact Or.inl (by omega)
  · -- the inner cut is at the end of the part, which is the outer cut or the end of the whole
    simp only [List.length_take] at h
    by_cases hc : cut ≤ j
    · rwa [Nat.min_eq_right hc]
    · exact Or.inr (Or.inl (by omega))
  · rw [List.getElem?_take] at h
    split at h
    · exact Or.inr (Or.inr (Or.inl (by rwa [Nat.min_eq_left (by omega)])))
    · cases h
  · rw [List.getElem?_take] at h
    split at h
    · exact Or.inr (Or.inr (Or.inr ⟨by omega, by rwa [Nat.min_eq_left (by omega)]⟩))
    · cases h

/-- The body of a path starts at a cut: after its root, or after a leading `.`. -/
theorem cut_bodyStart (cs : List Char) : Cut cs (bodyStart cs) := by
  unfold bodyStart
  split
  · exact Or.inr (Or.inr (Or.inr ⟨by omega, rfl⟩))
  · exact Or.inr (Or.inl (Nat.le_refl _))
  · exact Or.inr (Or.inr (Or.inl rfl))
  · exact Or.inl rfl

theorem bodyStart_of_isAbsolute {p : String} (h : isAbsolute p = true) : bodyStart p.toList = 1 := by
  simp only [isAbsolute, String.startsWith_string_iff] at h
  obtain ⟨rest, hrest⟩ := h
  simp [← hrest, bodyStart]

/-- The last chunk of a path starts after its body's start or after a separator. -/
theorem lastChunk_fst (cs : List Char) (start : Nat) :
    (lastChunk cs start).1 = start ∨ cs[(lastChunk cs start).1]? = some '/' := by
  unfold lastChunk
  dsimp only
  split
  · rename_i k hk
    right
    -- `k` counts the characters after the last separator of the body
    obtain ⟨hlt, hsep, -⟩ := List.findIdx?_eq_some_iff_getElem.1 hk
    have hk' : (cs.drop start).reverse[k]? = some '/' :=
      List.getElem?_eq_some_iff.2 ⟨hlt, by simpa using hsep⟩
    simp only [List.length_reverse, List.length_drop] at hlt
    rw [List.getElem?_reverse (by simpa using hlt), List.getElem?_drop] at hk'
    simp only [List.length_drop] at hk'
    rwa [show start + (cs.length - start - 1 - k) = cs.length - k - 1 by omega] at hk'
  · left
    rfl

theorem le_lastChunk_fst (cs : List Char) (start : Nat) : start ≤ (lastChunk cs start).1 := by
  unfold lastChunk
  dsimp only
  split
  · rename_i k hk
    obtain ⟨hlt, -⟩ := List.findIdx?_eq_some_iff_getElem.1 hk
    simp only [List.length_reverse, List.length_drop] at hlt
    dsimp only
    omega
  · exact Nat.le_refl _

theorem lastChunk_fst_lt {cs : List Char} {start : Nat} (h : start < cs.length) :
    (lastChunk cs start).1 < cs.length := by
  unfold lastChunk
  dsimp only
  split
  · rename_i k hk
    obtain ⟨hlt, -⟩ := List.findIdx?_eq_some_iff_getElem.1 hk
    simp only [List.length_reverse, List.length_drop] at hlt
    dsimp only
    omega
  · exact h

/-- The last chunk of a path cut at its body's start starts at a cut too. -/
theorem cut_lastChunk {cs : List Char} {start : Nat} (h : Cut cs start) :
    Cut cs (lastChunk cs start).1 := by
  rcases lastChunk_fst cs start with heq | hsep
  · rw [heq]
    exact h
  · exact Or.inr (Or.inr (Or.inl hsep))

/-- Trimming the trailing empty and `.` chunks of a path cuts it between two of its names,
never before its body's start. -/
theorem trimTrivial_eq_take (start fuel : Nat) (cs : List Char) (h : Cut cs start) :
    ∃ j, Cut cs j ∧ min start cs.length ≤ j ∧ trimTrivial start fuel cs = cs.take j := by
  induction fuel generalizing cs with
  | zero => exact ⟨cs.length, Or.inr (Or.inl (Nat.le_refl _)), by omega, by simp [trimTrivial]⟩
  | succ fuel ih =>
    -- the path kept whole is cut at its end
    have hwhole : ∃ j, Cut cs j ∧ min start cs.length ≤ j ∧ cs = cs.take j :=
      ⟨cs.length, Or.inr (Or.inl (Nat.le_refl _)), by omega, by simp⟩
    simp only [trimTrivial]
    split
    · exact hwhole
    · have hcut := cut_lastChunk h
      have hle := le_lastChunk_fst cs start
      generalize lastChunk cs start = lc at hcut hle ⊢
      obtain ⟨cut, chunk⟩ := lc
      dsimp only at hcut hle ⊢
      split
      · -- a trivial last chunk is dropped and the rest trimmed again
        obtain ⟨j, hj, hjle, heq⟩ := ih (cs.take cut) (h.take_of_le hle)
        refine ⟨min j cut, hcut.trans hj, ?_, ?_⟩
        · simp only [List.length_take] at hjle
          omega
        · rw [heq, List.take_take]
      · exact hwhole

/-- **The parent is a cut of the path.** The text of a path's parent is the path cut between
two of its names, before its end, and after its root when the path is absolute. -/
theorem parent_eq_take {p q : String} (h : parent p = some q) :
    ∃ j, Cut p.toList j ∧ j < p.toList.length ∧ (isAbsolute p = true → 0 < j) ∧
      q.toList = p.toList.take j := by
  unfold parent at h
  dsimp only at h
  split at h
  · cases h
  · rename_i hne
    have hlen : 0 < p.toList.length := by
      cases hp : p.toList with
      | nil => simp [hp] at hne
      | cons c cs => simp
    obtain ⟨j₁, hcut₁, hle₁, ht⟩ :=
      trimTrivial_eq_take (bodyStart p.toList) p.toList.length p.toList (cut_bodyStart _)
    rw [ht] at h
    split at h
    · split at h
      · cases h
      · rename_i hrel
        cases h
        exact ⟨0, Or.inl rfl, hlen, fun habs => absurd habs hrel, by simp⟩
    · rename_i hlong
      simp only [List.length_take, Nat.not_le] at hlong
      -- the trimmed path is cut once more before its last chunk, then trimmed again
      have hstart₁ : Cut (p.toList.take j₁) (bodyStart p.toList) :=
        (cut_bodyStart _).take_of_le (by omega)
      have hcut := cut_lastChunk hstart₁
      have hle := le_lastChunk_fst (p.toList.take j₁) (bodyStart p.toList)
      have hlt := @lastChunk_fst_lt (p.toList.take j₁) (bodyStart p.toList)
        (by simp only [List.length_take]; omega)
      generalize lastChunk (p.toList.take j₁) (bodyStart p.toList) = lc at h hcut hle hlt
      obtain ⟨cut, chunk⟩ := lc
      dsimp only at h hcut hle hlt
      obtain ⟨j₂, hcut₂, hle₂, ht₂⟩ := trimTrivial_eq_take (bodyStart p.toList) cut
        ((p.toList.take j₁).take cut) (hstart₁.take_of_le hle)
      cases h
      simp only [List.length_take] at hlt hle₂
      refine ⟨min (min j₂ cut) j₁, hcut₁.trans (hcut.trans hcut₂), by omega, ?_, ?_⟩
      · intro habs
        have hone := bodyStart_of_isAbsolute habs
        omega
      · rw [String.toList_ofList, ht₂, List.take_take, List.take_take, Nat.min_assoc]

end Path

namespace FileTree

/-- A separator inside a path's characters splits them in two around it. -/
theorem eq_take_append_of_getElem? {cs : List Char} {i : Nat} (h : cs[i]? = some '/') :
    cs = cs.take i ++ '/' :: cs.drop (i + 1) := by
  obtain ⟨hi, hget⟩ := List.getElem?_eq_some_iff.1 h
  calc cs = cs.take i ++ cs.drop i := (List.take_append_drop i cs).symm
    _ = cs.take i ++ '/' :: cs.drop (i + 1) := by rw [List.drop_eq_getElem_cons hi, hget]

/-- A cut that leaves some characters keeps the path's start. -/
theorem startOf_take {cwd : Location} {p : String} {j : Nat} (hj : 0 < j) :
    startOf cwd (String.ofList (p.toList.take j)) = startOf cwd p := by
  apply startOf_eq_of_head?
  rw [String.toList_ofList, List.head?_take, if_neg (by omega)]

/-- Names read before at least one more are passed through before the last location. -/
theorem mem_dropLast_scanl_append {a : Location} {l₁ l₂ : List String} (h₂ : l₂ ≠ [])
    {loc : Location} (h : loc ∈ l₁.scanl descend a) : loc ∈ ((l₁ ++ l₂).scanl descend a).dropLast := by
  have htail : (l₂.scanl descend (l₁.foldl descend a)).tail ≠ [] := by
    obtain ⟨c, cs, rfl⟩ := List.exists_cons_of_ne_nil h₂
    simp
  rw [List.scanl_append, List.dropLast_append_of_ne_nil htail]
  exact List.mem_append_left _ h

/-- The empty path reads as the working directory, where a relative path's reading starts. -/
theorem mem_dropLast_trace_of_empty {cwd : Location} {p : String} (hrel : startOf cwd p = cwd)
    {loc : Location} (h : loc ∈ trace cwd "") : loc ∈ (trace cwd p).dropLast := by
  have hempty : trace cwd "" = [cwd, cwd] := by simp [trace, startOf]
  simp only [hempty, List.mem_cons, List.not_mem_nil, or_false, or_self] at h
  obtain ⟨c, cs, hcs⟩ := List.exists_cons_of_ne_nil (show chunks p ≠ [] by simp [chunks, Path.chunks])
  rw [h]
  simp only [trace, hrel, hcs, List.scanl_cons]
  rw [List.dropLast_cons_of_ne_nil List.scanl_ne_nil]
  exact List.mem_cons_self

/-- Reading a path cut between two of its names, before its end, passes only through locations
that reading the whole path passes through before its last one. -/
theorem mem_trace_of_cut {cwd : Location} {p : String} {j : Nat} (hcut : Path.Cut p.toList j)
    (hlt : j < p.toList.length) (habs : Path.isAbsolute p = true → 0 < j) {loc : Location}
    (h : loc ∈ trace cwd (String.ofList (p.toList.take j))) : loc ∈ (trace cwd p).dropLast := by
  by_cases hzero : j = 0
  · -- nothing is left, so the path is relative
    subst hzero
    have hrel : startOf cwd p = cwd := by
      unfold startOf
      rw [if_neg (fun hp : p.startsWith "/" = true => absurd (habs hp) (Nat.lt_irrefl 0))]
    exact mem_dropLast_trace_of_empty hrel (by simpa using h)
  · have hstart := @startOf_take cwd p _ (Nat.pos_of_ne_zero hzero)
    unfold trace at h ⊢
    rw [hstart] at h
    rcases hcut with hcut | hlong | hsep | ⟨hpos, hsep⟩
    · exact absurd hcut hzero
    · omega
    · -- the cut is just before a separator: the names before it come first in the path
      rw [chunks_of_toList_eq (eq_take_append_of_getElem? hsep)]
      exact mem_dropLast_scanl_append (by simp [chunks, Path.chunks]) h
    · -- the cut is just after a separator: the path cut there ends with an empty name
      have htake : (String.ofList (p.toList.take j)).toList = p.toList.take (j - 1) ++ ['/'] := by
        rw [String.toList_ofList, show j = j - 1 + 1 by omega, List.take_add_one, hsep]
        rfl
      rw [chunks_of_toList_eq htake] at h
      rw [chunks_of_toList_eq (show p.toList = p.toList.take (j - 1) ++ '/' :: p.toList.drop j by
        simpa [show j - 1 + 1 = j by omega] using eq_take_append_of_getElem? hsep)]
      exact mem_dropLast_scanl_append (by simp [chunks, Path.chunks])
        (mem_scanl_of_mem_append_empty h)

/-- Every location that reading a path's parent passes through is passed through by reading the
path before its last location. -/
theorem mem_dropLast_trace_of_parent {cwd : Location} {p q : String} (h : Path.parent p = some q)
    {loc : Location} (hloc : loc ∈ trace cwd q) : loc ∈ (trace cwd p).dropLast := by
  obtain ⟨j, hcut, hlt, habs, hq⟩ := Path.parent_eq_take h
  have : q = String.ofList (p.toList.take j) := by rw [← hq, String.ofList_toList]
  subst this
  exact mem_trace_of_cut hcut hlt habs hloc

/-- **The parent passes through nothing new.** Every location that reading a path's parent
passes through is passed through by reading the path. -/
theorem mem_trace_of_parent {cwd : Location} {p q : String} (h : Path.parent p = some q)
    {loc : Location} (hloc : loc ∈ trace cwd q) : loc ∈ trace cwd p :=
  (List.dropLast_sublist _).subset (mem_dropLast_trace_of_parent h hloc)

/-- The parent of a path with a valid name joined on passes only through locations the path
itself passes through: the joined name's entry is not one of them. -/
theorem mem_trace_of_parent_join {n : String} (hn : ValidName n) {cwd : Location}
    {base q : String} (h : Path.parent (Path.join base n) = some q) {loc : Location}
    (hloc : loc ∈ trace cwd q) : loc ∈ trace cwd base := by
  have hmem := mem_dropLast_trace_of_parent h hloc
  obtain ⟨l, hjoin, hbase, hstart⟩ := join_chunks hn cwd base
  unfold trace at hmem ⊢
  rw [hjoin, hstart, List.scanl_append] at hmem
  simp only [List.scanl_cons, List.scanl_nil, List.tail_cons, List.dropLast_concat] at hmem
  rcases hbase with hbase | hbase
  · rwa [hbase]
  · rw [hbase]
    exact mem_scanl_append_left hmem
/-! ## Names -/

/-- A text without separators whose first character is not a dot is a valid name. -/
theorem validName_of_toList_eq_cons {n : String} {c : Char} {rest : List Char}
    (h : n.toList = c :: rest) (hc : c ≠ '.') (hsep : '/' ∉ n.toList) : ValidName n := by
  refine ⟨?_, ?_, ?_, hsep⟩ <;> intro hn <;> simp [hn] at h
  · exact hc h.1.symm
  · exact hc h.1.symm

/-- The names a path's components are made of are names of the path that say something. -/
theorem mem_of_normal_mem_chunkComponents {l : List String} {n : String}
    (h : PathComponent.normal n ∈ Path.chunkComponents l) :
    n ∈ l ∧ n ≠ "" ∧ n ≠ "." ∧ n ≠ ".." := by
  simp only [Path.chunkComponents, List.mem_filterMap] at h
  obtain ⟨c, hc, hsome⟩ := h
  split at hsome
  · cases hsome
  · rename_i htriv
    split at hsome
    · cases hsome
    · rename_i hup
      cases hsome
      simp only [Bool.or_eq_true, String.isEmpty_iff, beq_iff_eq, not_or] at htriv
      simp only [beq_iff_eq] at hup
      exact ⟨hc, htriv.1, htriv.2, hup⟩

theorem validName_of_normal_mem_components {p n : String}
    (h : PathComponent.normal n ∈ Path.components p) : ValidName n := by
  -- every branch reads its names from the path's chunks, perhaps without the first
  have hnames : ∀ l, (∀ c ∈ l, c ∈ chunks p) → PathComponent.normal n ∈ Path.chunkComponents l →
      ValidName n := by
    intro l hl hmem
    obtain ⟨hn, hempty, hdot, hdots⟩ := mem_of_normal_mem_chunkComponents hmem
    exact ⟨hempty, hdot, hdots, not_mem_of_mem_chunks (hl n hn)⟩
  unfold Path.components at h
  split at h
  · rename_i rest hchunks
    split at h
    · cases h
    · simp only [List.mem_cons, reduceCtorEq, false_or] at h
      exact hnames rest (fun c hc => by simp [chunks, hchunks, hc]) h
  · rename_i rest hchunks
    simp only [List.mem_cons, reduceCtorEq, false_or] at h
    exact hnames rest (fun c hc => by simp [chunks, hchunks, hc]) h
  · exact hnames _ (fun c hc => hc) h

/-- **A file name is one valid name.** -/
theorem validName_of_fileName {p n : String} (h : Path.fileName p = some n) : ValidName n := by
  unfold Path.fileName at h
  split at h
  · rename_i name hlast
    cases h
    exact validName_of_normal_mem_components (List.mem_of_getLast? hlast)
  · cases h

end FileTree

end ReleaseBuild
