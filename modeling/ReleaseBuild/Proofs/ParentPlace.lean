import ReleaseBuild.Proofs.TreeShape
/-!
# The parent of a path, read by its names

`Path.parent` works on the characters of a path, the way the standard path type does: it drops
the trailing chunks that are empty or `.`, cuts the path before its last chunk, and drops the
trailing empty and `.` chunks of what is left. Creating a directory with its parents follows
that parent up, so what it creates is known only once the parent is read by names.

* Cutting a path before its last chunk leaves the names before it (`chunks_lastChunk`), and
  dropping empty and `.` chunks leaves the place a path names as it is (`place_trimTrivial`).
* **The parent is one name up** (`place_parent`): a path leads one name, neither empty nor `.`,
  below where its parent leads, unless it names where its reading starts; and the parent itself
  ends in a name (`EndsInName`) or names where its reading starts.
* Only the empty path and a path that names its start have no parent (`parent_eq_none`,
  `place_of_trimmed_short`).
-/

set_option autoImplicit false

namespace ReleaseBuild

namespace Path

/-- The last chunk of a path's body holds no separator, and the path is what comes before it,
then a separator, then the chunk; unless the body holds no separator at all, when the chunk is
the whole body. -/
theorem lastChunk_split (cs : List Char) (start : Nat) :
    '/' ∉ (lastChunk cs start).2 ∧
      (cs = cs.take (lastChunk cs start).1 ++ '/' :: (lastChunk cs start).2 ∨
        (lastChunk cs start).1 = start ∧ (lastChunk cs start).2 = cs.drop start) := by
  unfold lastChunk
  dsimp only
  split
  · rename_i k hk
    -- `k` counts the characters after the last separator of the body
    obtain ⟨hlt, hsep, hbefore⟩ := List.findIdx?_eq_some_iff_getElem.1 hk
    simp only [List.length_reverse, List.length_drop] at hlt
    have hchunk : ((cs.drop start).reverse.take k).reverse = cs.drop (cs.length - k) := by
      rw [List.take_reverse, List.reverse_reverse, List.drop_drop, List.length_drop]
      congr 1
      omega
    have hcut : cs.length - k - 1 < cs.length := by omega
    have hsep' : cs[cs.length - k - 1] = '/' := by
      simp only [List.getElem_reverse, List.getElem_drop, List.length_drop, beq_iff_eq] at hsep
      rw [← hsep]
      congr 1
      omega
    refine ⟨?_, Or.inl ?_⟩
    · intro hmem
      rw [List.mem_reverse, List.mem_take_iff_getElem] at hmem
      obtain ⟨j, hj, hget⟩ := hmem
      exact hbefore j (by omega) (by simpa using hget)
    · rw [hchunk]
      calc cs = cs.take (cs.length - k - 1) ++ cs.drop (cs.length - k - 1) :=
            (List.take_append_drop _ _).symm
        _ = _ := by
          rw [List.drop_eq_getElem_cons hcut, hsep', show cs.length - k - 1 + 1 = cs.length - k by omega]
  · rename_i hk
    refine ⟨fun hmem => ?_, Or.inr ⟨rfl, rfl⟩⟩
    have := List.findIdx?_eq_none_iff.1 hk '/' (List.mem_reverse.2 hmem)
    simp at this

theorem bodyStart_le_one (cs : List Char) : bodyStart cs ≤ 1 := by
  unfold bodyStart
  split <;> omega

/-- A path that does not start with a separator has a body from its first character on, unless
it is `.` or starts with `./`. -/
theorem bodyStart_cons_of_ne {c : Char} {r : List Char} (hc : c ≠ '/') (hdot : c ≠ '.') :
    bodyStart (c :: r) = 0 := by
  simp [bodyStart, hc, hdot]

/-- Cutting a path at its body's start, at its end or before a separator keeps where its body
starts. -/
theorem bodyStart_take {cs : List Char} {j : Nat} (hj : bodyStart cs ≤ j)
    (hcut : j = bodyStart cs ∨ cs.length ≤ j ∨ cs[j]? = some '/') :
    bodyStart (cs.take j) = bodyStart cs := by
  rcases cs with _ | ⟨c, r⟩
  · simp
  by_cases hslash : c = '/'
  · -- the root stays
    subst hslash
    obtain ⟨j, rfl⟩ : ∃ j', j = j' + 1 := ⟨j - 1, by simp [bodyStart] at hj; omega⟩
    rfl
  by_cases hdot : c = '.'
  · subst hdot
    rcases r with _ | ⟨d, r⟩
    · obtain ⟨j, rfl⟩ : ∃ j', j = j' + 1 := ⟨j - 1, by simp [bodyStart] at hj; omega⟩
      simp
    by_cases hd : d = '/'
    · -- a leading `./` stays, and so does `.` alone
      subst hd
      obtain ⟨j, rfl⟩ : ∃ j', j = j' + 1 := ⟨j - 1, by simp [bodyStart] at hj; omega⟩
      rcases j with _ | j <;> rfl
    · have hzero : bodyStart ('.' :: d :: r) = 0 := by simp [bodyStart, hd]
      rw [hzero] at hcut ⊢
      rcases j with _ | _ | j
      · rfl
      · simp [hd] at hcut
      · simp [bodyStart, hd]
  · rw [bodyStart_cons_of_ne hslash hdot]
    rcases j with _ | j
    · rfl
    · exact bodyStart_cons_of_ne hslash hdot

end Path

namespace FileTree

/-- **The last chunk of a path.** A path with a body is made of some names, then its last
chunk; the path cut before that chunk leads where those names lead. -/
theorem chunks_lastChunk (cwd : Location) {cs : List Char} (hpos : Path.bodyStart cs < cs.length) :
    ∃ l, chunks (String.ofList cs) = l ++ [String.ofList (Path.lastChunk cs (Path.bodyStart cs)).2] ∧
      place cwd (String.ofList (cs.take (Path.lastChunk cs (Path.bodyStart cs)).1)) =
        l.foldl descend (startOf cwd (String.ofList cs)) := by
  obtain ⟨hnosep, hsplit⟩ := Path.lastChunk_split cs (Path.bodyStart cs)
  have hle := Path.le_lastChunk_fst cs (Path.bodyStart cs)
  generalize Path.lastChunk cs (Path.bodyStart cs) = lc at hnosep hsplit hle ⊢
  obtain ⟨cut, chunk⟩ := lc
  dsimp only at hnosep hsplit hle ⊢
  have hchunk : chunks (String.ofList chunk) = [String.ofList chunk] :=
    chunks_of_not_mem (by simpa using hnosep)
  rcases hsplit with hsplit | ⟨rfl, rfl⟩
  · -- the last separator parts the path in two
    have hcut : 0 < cut := by
      by_contra hzero
      rw [Nat.eq_zero_of_not_pos hzero, List.take_zero, List.nil_append] at hsplit
      rw [hsplit] at hle
      simp only [Path.bodyStart] at hle
      omega
    have hstart := @startOf_take cwd (String.ofList cs) cut hcut
    rw [String.toList_ofList] at hstart
    have hchunks := chunks_of_toList_eq (show (String.ofList cs).toList = cs.take cut ++ '/' :: chunk
      by rw [String.toList_ofList]; exact hsplit)
    exact ⟨_, by rw [hchunks, hchunk], by rw [place, hstart]⟩
  · -- no separator in the body: the path is its start, then the chunk
    rcases cs with _ | ⟨c, r⟩
    · simp at hpos
    by_cases hslash : c = '/'
    · -- the root, then one name
      subst hslash
      have hchunks := chunks_of_toList_eq
        (show (String.ofList ('/' :: r)).toList = [] ++ '/' :: r by simp)
      simp only [Path.bodyStart, List.take_succ_cons, List.take_zero, List.drop_succ_cons,
        List.drop_zero] at hchunk ⊢
      refine ⟨[""], by rw [hchunks, hchunk]; rfl, ?_⟩
      have hroot : chunks "/" = ["", ""] := by decide
      simp [place, hroot, startOf]
    -- otherwise the body is the whole path, or the path is `.`
    have hzero : Path.bodyStart (c :: r) = 0 := by
      by_cases hdot : c = '.'
      · subst hdot
        rcases r with _ | ⟨d, r⟩
        · simp [Path.bodyStart] at hpos
        · by_cases hd : d = '/'
          · subst hd
            simp [Path.bodyStart] at hnosep
          · simp [Path.bodyStart, hd]
      · exact Path.bodyStart_cons_of_ne hslash hdot
    rw [hzero, List.drop_zero] at hchunk ⊢
    have hstart : startOf cwd (String.ofList (c :: r)) = cwd :=
      (startOf_eq_of_head? (q := "") (by simp [hslash])).trans rfl
    exact ⟨[], by rw [hchunk]; rfl, by rw [hstart]; rfl⟩

/-- Where a path with a body leads is one name below where the path cut before its last chunk
leads. -/
theorem place_lastChunk (cwd : Location) {cs : List Char} (hpos : Path.bodyStart cs < cs.length) :
    place cwd (String.ofList cs) =
      descend (place cwd (String.ofList (cs.take (Path.lastChunk cs (Path.bodyStart cs)).1)))
        (String.ofList (Path.lastChunk cs (Path.bodyStart cs)).2) := by
  obtain ⟨l, hchunks, hplace⟩ := chunks_lastChunk cwd hpos
  rw [hplace, place, hchunks, List.foldl_append, List.foldl_cons, List.foldl_nil]

/-- A chunk that is empty or `.` reads as nothing. -/
theorem descend_of_trivial {chunk : List Char} (h : (chunk.isEmpty || chunk == ['.']) = true)
    (acc : Location) : descend acc (String.ofList chunk) = acc := by
  simp only [Bool.or_eq_true, List.isEmpty_iff, beq_iff_eq] at h
  rcases h with rfl | rfl <;> rfl

/-- **Trimming keeps the place.** Dropping trailing empty and `.` chunks leaves a path that leads
where the path did and whose body starts where it did. -/
theorem place_trimTrivial (cwd : Location) {start : Nat} (fuel : Nat) {cs : List Char}
    (hstart : Path.bodyStart cs = start) :
    place cwd (String.ofList (Path.trimTrivial start fuel cs)) = place cwd (String.ofList cs) ∧
      Path.bodyStart (Path.trimTrivial start fuel cs) = start := by
  induction fuel generalizing cs with
  | zero => exact ⟨rfl, hstart⟩
  | succ fuel ih =>
    simp only [Path.trimTrivial]
    split
    · exact ⟨rfl, hstart⟩
    · rename_i hlong
      have hplace := place_lastChunk cwd (show Path.bodyStart cs < cs.length by omega)
      have hle := Path.le_lastChunk_fst cs start
      have hsep := Path.lastChunk_fst cs start
      rw [hstart] at hplace
      generalize Path.lastChunk cs start = lc at hplace hle hsep ⊢
      obtain ⟨cut, chunk⟩ := lc
      dsimp only at hplace hle hsep ⊢
      split
      · -- a trivial last chunk is dropped, and the rest is trimmed again
        rename_i htriv
        have htake : Path.bodyStart (cs.take cut) = start := by
          rw [Path.bodyStart_take (hstart ▸ hle) (by rcases hsep with h | h <;> simp [h, hstart])]
          exact hstart
        obtain ⟨h₁, h₂⟩ := ih htake
        exact ⟨h₁.trans (by rw [hplace, descend_of_trivial htriv]), h₂⟩
      · exact ⟨rfl, hstart⟩

/-- **Trimming stops at a name.** With fuel for every character, trimming leaves a path whose
last chunk is neither empty nor `.`, or nothing past its body's start. -/
theorem trimTrivial_lastChunk {start : Nat} (fuel : Nat) {cs : List Char}
    (hfuel : cs.length ≤ fuel) :
    (Path.trimTrivial start fuel cs).length ≤ start ∨
      ((Path.lastChunk (Path.trimTrivial start fuel cs) start).2.isEmpty ||
        (Path.lastChunk (Path.trimTrivial start fuel cs) start).2 == ['.']) = false := by
  induction fuel generalizing cs with
  | zero => exact Or.inl (by simp [Path.trimTrivial]; omega)
  | succ fuel ih =>
    simp only [Path.trimTrivial]
    split
    · exact Or.inl (by omega)
    · rename_i hlong
      have hlt := @Path.lastChunk_fst_lt cs start (by omega)
      rcases hlc : Path.lastChunk cs start with ⟨cut, chunk⟩
      rw [hlc] at hlt
      dsimp only at hlt ⊢
      split
      · exact ih (by simp only [List.length_take]; omega)
      · rename_i htriv
        exact Or.inr (by simpa [hlc] using htriv)

/-- A path cut between two of its names holds only names of the path, and perhaps an empty one
where the cut falls after a separator. -/
theorem mem_chunks_of_cut {cs : List Char} {j : Nat} (hcut : Path.Cut cs j) {c : String}
    (h : c ∈ chunks (String.ofList (cs.take j))) : c ∈ chunks (String.ofList cs) ∨ c = "" := by
  rcases hcut with rfl | hlong | hsep | ⟨hpos, hsep⟩
  · rw [List.take_zero, show String.ofList [] = "" from rfl, chunks_empty] at h
    exact Or.inr (List.mem_singleton.1 h)
  · rw [List.take_of_length_le hlong] at h
    exact Or.inl h
  · -- the cut is just before a separator
    have hsplit := eq_take_append_of_getElem? hsep
    rw [chunks_of_toList_eq (show (String.ofList cs).toList = cs.take j ++ '/' :: cs.drop (j + 1)
      by rw [String.toList_ofList]; exact hsplit)]
    exact Or.inl (List.mem_append_left _ h)
  · -- the cut is just after a separator: the part cut off ends with an empty name
    have htake : cs.take j = cs.take (j - 1) ++ ['/'] := by
      rw [show j = j - 1 + 1 by omega, List.take_add_one, hsep]
      rfl
    have hsplit : cs = cs.take (j - 1) ++ '/' :: cs.drop j := by
      simpa [show j - 1 + 1 = j by omega] using eq_take_append_of_getElem? hsep
    rw [chunks_of_toList_eq (show (String.ofList (cs.take j)).toList = cs.take (j - 1) ++ '/' :: []
      by rw [String.toList_ofList, htake])] at h
    rw [chunks_of_toList_eq (show (String.ofList cs).toList = cs.take (j - 1) ++ '/' :: cs.drop j
      by rw [String.toList_ofList]; exact hsplit)]
    rcases List.mem_append.1 h with h | h
    · exact Or.inl (List.mem_append_left _ h)
    · rw [show String.ofList [] = "" from rfl, chunks_empty] at h
      exact Or.inr (List.mem_singleton.1 h)

/-- A path with nothing past its body's start names where its reading starts. -/
theorem place_of_length_le (cwd : Location) {cs : List Char}
    (hlen : cs.length ≤ Path.bodyStart cs) :
    place cwd (String.ofList cs) = startOf cwd (String.ofList cs) := by
  rcases cs with _ | ⟨c, _ | ⟨d, r⟩⟩
  · rfl
  · by_cases hslash : c = '/'
    · subst hslash
      have hchunks : chunks "/" = ["", ""] := by decide
      simp [place, hchunks, startOf]
    by_cases hdot : c = '.'
    · subst hdot
      have hchunks : chunks "." = ["."] := by decide
      simp [place, hchunks, descend]
    · simp [Path.bodyStart_cons_of_ne hslash hdot] at hlen
  · have := Path.bodyStart_le_one (c :: d :: r)
    simp only [List.length_cons] at hlen
    omega

/-- A path cut no earlier than its body's start is read from where the path is. -/
theorem startOf_take_of_le (cwd : Location) {cs : List Char} {j : Nat}
    (hj : min (Path.bodyStart cs) cs.length ≤ j) :
    startOf cwd (String.ofList (cs.take j)) = startOf cwd (String.ofList cs) := by
  rcases Nat.eq_zero_or_pos j with rfl | hpos
  · -- nothing is kept: the path is empty or has its body from its first character
    rcases cs with _ | ⟨c, r⟩
    · rfl
    · have hzero : Path.bodyStart (c :: r) = 0 := by simp at hj; omega
      have hslash : c ≠ '/' := by
        rintro rfl
        simp [Path.bodyStart] at hzero
      exact startOf_eq_of_head? (by simp [hslash])
  · simpa using @startOf_take cwd (String.ofList cs) j hpos

/-- The parent of a path, read off its definition: the path is trimmed of its trailing empty and
`.` chunks; if nothing is left past its body's start, a relative path has the empty parent, and
otherwise the trimmed path is cut before its last chunk and trimmed again. -/
theorem parent_eq_some {p q : String} (h : Path.parent p = some q) :
    ((Path.trimTrivial (Path.bodyStart p.toList) p.toList.length p.toList).length ≤
        Path.bodyStart p.toList ∧ q = "") ∨
      (Path.bodyStart p.toList <
          (Path.trimTrivial (Path.bodyStart p.toList) p.toList.length p.toList).length ∧
        q = String.ofList (Path.trimTrivial (Path.bodyStart p.toList)
          (Path.lastChunk (Path.trimTrivial (Path.bodyStart p.toList) p.toList.length p.toList)
            (Path.bodyStart p.toList)).1
          ((Path.trimTrivial (Path.bodyStart p.toList) p.toList.length p.toList).take
            (Path.lastChunk (Path.trimTrivial (Path.bodyStart p.toList) p.toList.length p.toList)
              (Path.bodyStart p.toList)).1))) := by
  unfold Path.parent at h
  dsimp only at h
  split at h
  · cases h
  · split at h
    · split at h
      · cases h
      · cases h
        exact Or.inl ⟨by omega, rfl⟩
    · cases h
      exact Or.inr ⟨by omega, rfl⟩

/-- Only the empty path and a path that names its root have no parent. -/
theorem parent_eq_none {p : String} (h : Path.parent p = none) :
    p = "" ∨ (Path.trimTrivial (Path.bodyStart p.toList) p.toList.length p.toList).length ≤
      Path.bodyStart p.toList := by
  unfold Path.parent at h
  dsimp only at h
  split at h
  · rename_i hempty
    left
    simpa using hempty
  · split at h
    · exact Or.inr (by omega)
    · cases h

/-- A path trimmed to nothing past its body's start names where its reading starts. -/
theorem place_of_trimmed_short (cwd : Location) {p : String}
    (hshort : (Path.trimTrivial (Path.bodyStart p.toList) p.toList.length p.toList).length ≤
      Path.bodyStart p.toList) :
    place cwd p = startOf cwd p := by
  obtain ⟨hplace, hstart⟩ := @place_trimTrivial cwd _ p.toList.length p.toList rfl
  obtain ⟨j, -, hj, htake⟩ := Path.trimTrivial_eq_take (Path.bodyStart p.toList) p.toList.length
    p.toList (Path.cut_bodyStart _)
  rw [String.ofList_toList] at hplace
  rw [← hplace, place_of_length_le cwd (by omega), htake, startOf_take_of_le cwd hj,
    String.ofList_toList]

/-- The last of a path's names, trailing separators aside, is one to create: the path has a
last name and it is not `.`. -/
def EndsInName (path : String) : Prop :=
  ∃ n, (trimmedChunks path).getLast? = some n ∧ n ≠ "."

/-- A path whose last chunk is neither empty nor `.` ends in that name. -/
theorem endsInName_of_lastChunk {cs : List Char} (hpos : Path.bodyStart cs < cs.length)
    (htriv : ((Path.lastChunk cs (Path.bodyStart cs)).2.isEmpty ||
      (Path.lastChunk cs (Path.bodyStart cs)).2 == ['.']) = false) :
    EndsInName (String.ofList cs) := by
  obtain ⟨l, hchunks, -⟩ := chunks_lastChunk [] hpos
  simp only [Bool.or_eq_false_iff, List.isEmpty_eq_false_iff, beq_eq_false_iff_ne, ne_eq] at htriv
  have hne : String.ofList (Path.lastChunk cs (Path.bodyStart cs)).2 ≠ "" := by
    simpa [← String.toList_inj] using htriv.1
  refine ⟨_, by rw [trimmedChunks_of_getLast hchunks hne, List.getLast?_concat], ?_⟩
  simpa [← String.toList_inj] using htriv.2

/-- **The parent is one name up.** A path's parent leads one name above the path, by a name of
the path that is neither empty nor `.`, unless the path names where its reading starts; and the
parent itself ends in a name, or names where its reading starts. -/
theorem place_parent (cwd : Location) {p q : String} (h : Path.parent p = some q) :
    place cwd p = startOf cwd p ∨
      (∃ c ∈ chunks p, c ≠ "" ∧ c ≠ "." ∧ place cwd p = descend (place cwd q) c) ∧
        (EndsInName q ∨ place cwd q = startOf cwd q) := by
  rcases parent_eq_some h with ⟨hshort, -⟩ | ⟨hlong, rfl⟩
  · exact Or.inl (place_of_trimmed_short cwd hshort)
  right
  obtain ⟨hplace, hstart⟩ := @place_trimTrivial cwd _ p.toList.length p.toList rfl
  obtain ⟨j, hcut, -, htake⟩ := Path.trimTrivial_eq_take (Path.bodyStart p.toList)
    p.toList.length p.toList (Path.cut_bodyStart _)
  have hlast := @trimTrivial_lastChunk (Path.bodyStart p.toList) p.toList.length _ le_rfl
  rw [String.ofList_toList] at hplace
  generalize Path.trimTrivial (Path.bodyStart p.toList) p.toList.length p.toList = t at *
  have htriv : ((Path.lastChunk t (Path.bodyStart p.toList)).2.isEmpty ||
      (Path.lastChunk t (Path.bodyStart p.toList)).2 == ['.']) = false := by
    rcases hlast with hshort | htriv
    · omega
    · exact htriv
  have hpos : Path.bodyStart t < t.length := by omega
  obtain ⟨l, hchunks, -⟩ := chunks_lastChunk cwd hpos
  have hone := place_lastChunk cwd hpos
  have hle := Path.le_lastChunk_fst t (Path.bodyStart p.toList)
  have hsep := Path.lastChunk_fst t (Path.bodyStart p.toList)
  have hlt := @Path.lastChunk_fst_lt t (Path.bodyStart p.toList) hlong
  rw [hstart] at hchunks hone
  generalize Path.lastChunk t (Path.bodyStart p.toList) = lc at *
  obtain ⟨cut, chunk⟩ := lc
  dsimp only at *
  -- the path cut before its last chunk starts its body where the path does
  have hbody : Path.bodyStart (t.take cut) = Path.bodyStart p.toList := by
    rw [Path.bodyStart_take (hstart ▸ hle) (by rcases hsep with h | h <;> simp [h, hstart])]
    exact hstart
  obtain ⟨hplace', hstart'⟩ := place_trimTrivial cwd cut hbody
  simp only [Bool.or_eq_false_iff, List.isEmpty_eq_false_iff, beq_eq_false_iff_ne, ne_eq] at htriv
  have hne : String.ofList chunk ≠ "" := by simpa [← String.toList_inj] using htriv.1
  refine ⟨⟨String.ofList chunk, ?_, hne, by simpa [← String.toList_inj] using htriv.2, ?_⟩, ?_⟩
  · -- the chunk is one of the trimmed path's names, so one of the path's
    have hmem : String.ofList chunk ∈ chunks (String.ofList t) := by simp [hchunks]
    rw [htake] at hmem
    simpa [hne] using mem_chunks_of_cut hcut hmem
  · rw [← hplace, hone, hplace']
  · -- the parent is trimmed again, so it ends in a name or has nothing past its start
    by_cases hshort : (Path.trimTrivial (Path.bodyStart p.toList) cut (t.take cut)).length ≤
        Path.bodyStart p.toList
    · exact Or.inr (place_of_length_le cwd (by omega))
    · rcases @trimTrivial_lastChunk (Path.bodyStart p.toList) cut (t.take cut) (by simp)
        with hshort' | hname
      · omega
      · exact Or.inl (endsInName_of_lastChunk (by omega) (by rw [hstart']; exact hname))

end FileTree

end ReleaseBuild
