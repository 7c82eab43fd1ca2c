import Mathlib.Data.List.Induction
import Mathlib.Data.List.Nodup
import ReleaseBuild.Proofs.TreeFrame
/-!
# Trees of directories and files

The file tree stores its entries as a list of located nodes, so a list could hold what no disk
holds: a location stored twice, a name with a separator in it, a file inside a missing directory.
A real tree is `FileTree.Valid`: each location is stored once, every name is valid, and every
entry sits in a directory. This module gives the shape such a tree has and where its paths lead.

* Above every entry there are directories all the way up (`Valid.get?_take`), and under a
  location that is missing or a file there is nothing (`Valid.get?_eq_none_of_below`).
* The names listed in a directory are those of its entries, each once (`mem_childNames`,
  `Valid.nodup_childNames`).
* Storing an entry inside a directory and removing a location with what is below it keep a tree
  valid (`Valid.put`, `Valid.removeTree`).
* A path names a directory exactly when walking its names through directories succeeds
  (`lookup_eq_directory_iff`), and a name joined onto a directory is looked up in that directory
  (`lookup_join`). These two are what the glob walk and the removal of a directory's entries
  rest on.
-/

set_option autoImplicit false

namespace ReleaseBuild

namespace FileTree

/-! ## Real trees -/

/-- A tree a disk can hold: each location is stored once, every name is valid, and every entry
but the root sits in a directory. -/
structure Valid (t : FileTree) : Prop where
  nodup : (t.entries.map (·.1)).Nodup
  named : WellNamed t
  rooted : ∀ e ∈ t.entries, e.1 ≠ [] ∧ t.get? e.1.dropLast = some .directory

instance : DecidablePred WellNamed := fun t =>
  inferInstanceAs (Decidable (∀ e ∈ t.entries, ∀ n ∈ e.1, ValidName n))

instance (t : FileTree) : Decidable t.Valid :=
  decidable_of_iff ((t.entries.map (·.1)).Nodup ∧ WellNamed t ∧
      ∀ e ∈ t.entries, e.1 ≠ [] ∧ t.get? e.1.dropLast = some .directory)
    ⟨fun ⟨h₁, h₂, h₃⟩ => ⟨h₁, h₂, h₃⟩, fun ⟨h₁, h₂, h₃⟩ => ⟨h₁, h₂, h₃⟩⟩

variable {t : FileTree}

theorem get?_of_ne_nil {loc : Location} (h : loc ≠ []) :
    t.get? loc = (t.entries.find? (·.1 == loc)).map (·.2) := by
  simp [get?, h]

/-- An entry other than the root is found where it is stored. -/
theorem get?_eq_none_iff {loc : Location} (h : loc ≠ []) :
    t.get? loc = none ↔ ∀ n, (loc, n) ∉ t.entries := by
  rw [get?_of_ne_nil h, Option.map_eq_none_iff, List.find?_eq_none]
  constructor
  · intro hnone n hmem
    simpa using hnone _ hmem
  · rintro hnot ⟨l, n⟩ hmem
    simp only [beq_iff_eq]
    rintro rfl
    exact hnot n hmem

theorem Valid.get?_eq_some_iff (ht : t.Valid) {loc : Location} (h : loc ≠ []) {n : Node} :
    t.get? loc = some n ↔ (loc, n) ∈ t.entries := by
  rw [get?_of_ne_nil h]
  constructor
  · intro hsome
    obtain ⟨e, hfind, rfl⟩ := Option.map_eq_some_iff.1 hsome
    have hloc : e.1 = loc := by simpa using List.find?_some hfind
    rw [← hloc]
    exact List.mem_of_find?_eq_some hfind
  · intro hmem
    -- the entry found first at the location is the only one stored there
    obtain ⟨e, hfind⟩ : ∃ e, t.entries.find? (·.1 == loc) = some e := by
      cases hf : t.entries.find? (·.1 == loc) with
      | none => exact absurd hmem (by simpa using List.find?_eq_none.1 hf (loc, n))
      | some e => exact ⟨e, rfl⟩
    have he := List.mem_of_find?_eq_some hfind
    have hloc : e.1 = loc := by simpa using List.find?_some hfind
    have heq : e = (loc, n) := List.inj_on_of_nodup_map ht.nodup he hmem hloc
    rw [hfind, heq]
    rfl

theorem mem_entries_of_get? {loc : Location} (h : loc ≠ []) {n : Node} (hget : t.get? loc = some n) :
    (loc, n) ∈ t.entries := by
  rw [get?_of_ne_nil h] at hget
  obtain ⟨e, hfind, rfl⟩ := Option.map_eq_some_iff.1 hget
  have hloc : e.1 = loc := by simpa using List.find?_some hfind
  rw [← hloc]
  exact List.mem_of_find?_eq_some hfind

/-! ## Above and below an entry -/

/-- The directory an entry sits in. -/
theorem Valid.get?_dropLast (ht : t.Valid) {loc : Location} {n : Node} (h : t.get? loc = some n) :
    t.get? loc.dropLast = some .directory := by
  by_cases hnil : loc = []
  · subst hnil
    rfl
  · exact (ht.rooted _ (mem_entries_of_get? hnil h)).2

/-- **Directories all the way up.** Every location above an entry is a directory. The induction
is on the entry's location, one level up at a time. -/
theorem Valid.get?_take (ht : t.Valid) {loc : Location} {n : Node} (h : t.get? loc = some n)
    {k : Nat} (hk : k < loc.length) : t.get? (loc.take k) = some .directory := by
  induction loc using List.reverseRecOn generalizing n with
  | nil => simp at hk
  | append_singleton init last ih =>
    have hup : t.get? init = some .directory := by
      simpa using ht.get?_dropLast h
    simp only [List.length_append, List.length_singleton] at hk
    by_cases hkl : k = init.length
    · subst hkl
      simpa using hup
    · rw [List.take_append_of_le_length (by omega)]
      exact ih hup (by omega)

/-- Every proper prefix of an entry's location is a directory. -/
theorem Valid.get?_above (ht : t.Valid) {a loc : Location} {n : Node} (h : t.get? loc = some n)
    (hpre : a <+: loc) (hne : a ≠ loc) : t.get? a = some .directory := by
  obtain ⟨rest, rfl⟩ := hpre
  have hrest : rest ≠ [] := by
    rintro rfl
    exact hne (List.append_nil a).symm
  have hlen : a.length < (a ++ rest).length := by
    simp only [List.length_append]
    exact Nat.lt_add_of_pos_right (List.length_pos_of_ne_nil hrest)
  simpa using ht.get?_take h hlen

/-- Every location above a directory is a directory. -/
theorem Valid.directory_above (ht : t.Valid) {a loc : Location}
    (h : t.get? loc = some .directory) (hpre : a <+: loc) : t.get? a = some .directory := by
  by_cases hne : a = loc
  · rwa [hne]
  · exact ht.get?_above h hpre hne

/-- **Nothing below a missing location or a file.** -/
theorem Valid.get?_eq_none_of_below (ht : t.Valid) {a x : Location} (hpre : a <+: x) (hne : a ≠ x)
    (ha : t.get? a ≠ some .directory) : t.get? x = none := by
  cases hx : t.get? x with
  | none => rfl
  | some n => exact absurd (ht.get?_above hx hpre hne) ha

/-! ## The names in a directory -/

/-- The names listed in a directory are those of the entries stored directly inside it. -/
theorem mem_childNames {loc : Location} {name : String} :
    name ∈ t.childNames loc ↔ ∃ n, (loc ++ [name], n) ∈ t.entries := by
  simp only [childNames, List.mem_filterMap]
  constructor
  · rintro ⟨e, he, hsome⟩
    split at hsome
    · rename_i hcond
      simp only [Bool.and_eq_true, beq_iff_eq, List.isPrefixOf_iff_prefix] at hcond
      obtain ⟨hlen, rest, hrest⟩ := hcond
      -- one name follows the directory's location, and it is the last one
      have hone : rest.length = 1 := by
        rw [← hrest, List.length_append] at hlen
        omega
      obtain ⟨r, rfl⟩ := List.length_eq_one_iff.1 hone
      rw [← hrest] at hsome
      simp only [List.getLast?_append, List.getLast?_singleton, Option.some_or,
        Option.some.injEq] at hsome
      subst hsome
      exact ⟨e.2, by rw [hrest]; exact he⟩
    · cases hsome
  · rintro ⟨n, hn⟩
    refine ⟨(loc ++ [name], n), hn, ?_⟩
    simp

theorem mem_childNames_iff {loc : Location} {name : String} :
    name ∈ t.childNames loc ↔ t.get? (loc ++ [name]) ≠ none := by
  rw [mem_childNames, Ne, get?_eq_none_iff (by simp)]
  simp

/-- A directory lists each of its entries once. -/
theorem Valid.nodup_childNames (ht : t.Valid) (loc : Location) : (t.childNames loc).Nodup := by
  unfold childNames
  -- the names are read off the locations, which are stored once each
  have hmap : (t.entries.filterMap fun e =>
      if e.1.length == loc.length + 1 && loc.isPrefixOf e.1 then e.1.getLast? else none) =
      (t.entries.map (·.1)).filterMap fun l =>
        if l.length == loc.length + 1 && loc.isPrefixOf l then l.getLast? else none := by
    rw [List.filterMap_map]
    rfl
  rw [hmap]
  refine ht.nodup.filterMap fun l l' name h h' => ?_
  simp only [Option.mem_def] at h h'
  -- a location one level below `loc` is `loc` followed by its last name
  have hform : ∀ x : Location, (if x.length == loc.length + 1 && loc.isPrefixOf x then
      x.getLast? else none) = some name → x = loc ++ [name] := by
    intro x hx
    split at hx
    · rename_i hcond
      simp only [Bool.and_eq_true, beq_iff_eq, List.isPrefixOf_iff_prefix] at hcond
      obtain ⟨hlen, rest, rfl⟩ := hcond
      have hone : rest.length = 1 := by
        rw [List.length_append] at hlen
        omega
      obtain ⟨r, rfl⟩ := List.length_eq_one_iff.1 hone
      simp only [List.getLast?_append, List.getLast?_singleton, Option.some_or,
        Option.some.injEq] at hx
      rw [hx]
    · cases hx
  rw [hform l h, hform l' h']

/-- Sorting a listing keeps its names. -/
@[simp] theorem mem_sortNames {names : List String} {n : String} :
    n ∈ sortNames names ↔ n ∈ names :=
  List.mem_mergeSort

theorem perm_sortNames (names : List String) : (sortNames names).Perm names :=
  List.mergeSort_perm _ _

/-- A sorted listing of a directory lists each of its entries once. -/
theorem Valid.nodup_sortNames (ht : t.Valid) (loc : Location) :
    (sortNames (t.childNames loc)).Nodup :=
  (perm_sortNames _).nodup_iff.2 (ht.nodup_childNames loc)

/-! ## Operations keep a tree real -/

/-- A location other than the root is not its own directory. -/
theorem dropLast_ne_self {loc : Location} (h : loc ≠ []) : loc.dropLast ≠ loc := by
  intro heq
  have hlen := congrArg List.length heq
  have hpos := List.length_pos_of_ne_nil h
  simp only [List.length_dropLast] at hlen
  omega

/-- Storing an entry inside a directory keeps a tree real, as long as a directory is only
replaced by a directory: one that held entries would leave them without a directory. -/
theorem Valid.put (ht : t.Valid) {loc : Location} (hloc : loc ≠ []) (hnames : ∀ n ∈ loc, ValidName n)
    (hdir : t.get? loc.dropLast = some .directory) {node : Node}
    (hnode : node = .directory ∨ t.get? loc ≠ some .directory) : (t.put loc node).Valid := by
  refine ⟨?_, wellNamed_put ht.named hnames node, ?_⟩
  · -- the location is stored once, after every other entry
    simp only [FileTree.put, List.map_append, List.map_cons, List.map_nil]
    refine List.nodup_append.2 ⟨ht.nodup.sublist ((List.filter_sublist).map _),
      List.nodup_singleton loc, ?_⟩
    intro a ha b hb
    simp only [List.mem_map, List.mem_filter, bne_iff_ne, ne_eq] at ha
    obtain ⟨e, ⟨-, hne⟩, rfl⟩ := ha
    rw [List.mem_singleton.1 hb]
    exact hne
  · intro e he
    simp only [FileTree.put, List.mem_append, List.mem_filter, List.mem_singleton] at he
    rcases he with ⟨he, -⟩ | rfl
    · obtain ⟨hnil, hup⟩ := ht.rooted e he
      refine ⟨hnil, ?_⟩
      by_cases hin : e.1.dropLast = loc
      · -- the entry sits in the stored location, which stays a directory
        rw [hin] at hup ⊢
        rw [get?_put_self node hloc]
        rcases hnode with rfl | hnode
        · rfl
        · exact absurd hup hnode
      · rw [get?_put_of_ne node hin]
        exact hup
    · exact ⟨hloc, by rw [get?_put_of_ne node (dropLast_ne_self hloc)]; exact hdir⟩

/-- Removing a location with everything below it keeps a tree real: what stays keeps its
directory. -/
theorem Valid.removeTree (ht : t.Valid) (loc : Location) : (t.removeTree loc).Valid := by
  refine ⟨ht.nodup.sublist ((List.filter_sublist).map _), wellNamed_removeTree ht.named loc, ?_⟩
  intro e he
  simp only [FileTree.removeTree, List.mem_filter, Bool.not_eq_eq_eq_not, Bool.not_true] at he
  obtain ⟨he, hout⟩ := he
  replace hout : ¬loc <+: e.1 := fun h => by simp [List.isPrefixOf_iff_prefix.2 h] at hout
  obtain ⟨hnil, hup⟩ := ht.rooted e he
  -- the directory of an entry that stays is not below the removed location either
  have hout' : ¬loc <+: e.1.dropLast := fun h => hout (h.trans (List.dropLast_prefix e.1))
  exact ⟨hnil, by rw [get?_removeTree_outside hout']; exact hup⟩

/-! ## Walking through directories -/

section Walk

variable {cwd : Location}

theorem walk_append (d : Location) (l₁ l₂ : List String) :
    t.walk d (l₁ ++ l₂) = (t.walk d l₁).bind fun d' => t.walk d' l₂ := by
  induction l₁ generalizing d with
  | nil => rfl
  | cons c cs ih =>
    simp only [List.cons_append, walk]
    split
    · exact ih d
    · split
      · exact ih _
      · split
        · exact ih _
        · rfl
        · rfl

/-- Empty names keep a walk where it is. -/
theorem walk_of_forall_empty {l : List String} (h : ∀ c ∈ l, c = "") (d : Location) :
    t.walk d l = .ok d := by
  induction l with
  | nil => rfl
  | cons c cs ih =>
    rw [h c (by simp)]
    exact ih fun c' hc' => h c' (by simp [hc'])

/-- The empty names that trailing separators leave do not move a walk. -/
theorem walk_chunks (d : Location) (path : String) :
    t.walk d (chunks path) = t.walk d (trimmedChunks path) := by
  obtain ⟨trail, hsplit, htrail⟩ := chunks_eq_trimmedChunks_append path
  rw [hsplit, walk_append]
  cases t.walk d (trimmedChunks path) with
  | error e => rfl
  | ok d' => exact walk_of_forall_empty htrail d'

/-- One name enters the entry of that name when it is a directory. -/
theorem walk_name {d : Location} {name : String} (hname : ValidName name) :
    t.walk d [name] = match t.get? (d ++ [name]) with
      | some .directory => .ok (d ++ [name])
      | some (.file ..) => .error .notADirectory
      | none => .error .notFound := by
  obtain ⟨hempty, hdot, hdots, -⟩ := hname
  have htriv : (name == "" || name == ".") = false := by simp [hempty, hdot]
  have hup : (name == "..") = false := by simp [hdots]
  -- one step of the walk, decided by the kind of entry the name reaches
  rcases hget : t.get? (d ++ [name]) with _ | _ | ⟨_, _⟩ <;>
    simp only [walk, htriv, hup, hget, Bool.false_eq_true, if_false]

/-- The names of a path that does not end with an empty name are its trimmed names. -/
theorem trimmedChunks_of_getLast {path : String} {l : List String} {last : String}
    (h : chunks path = l ++ [last]) (hlast : last ≠ "") : trimmedChunks path = l ++ [last] := by
  simp [trimmedChunks, h, hlast]

/-- A path whose last name is not empty does not end with a separator. -/
theorem endsWith_eq_false_of_chunks {path name : String} {l : List String}
    (h : chunks path = l ++ [name]) (hname : name ≠ "") : path.endsWith "/" = false := by
  by_contra hslash
  obtain ⟨A, hA⟩ : ['/'] <:+ path.toList := by
    simpa [← String.endsWith_toSlice] using hslash
  have hsplit := chunks_of_toList_eq (show path.toList = A ++ '/' :: [] from hA.symm)
  rw [h] at hsplit
  have hlast := congrArg List.getLast? hsplit
  simp only [List.getLast?_append, List.getLast?_singleton, Option.some_or] at hlast
  simp [chunks, Path.chunks] at hlast
  exact hname hlast

/-- **Looking up a name.** A path whose last name is a valid name is looked up by walking the
names before it through directories, then taking the entry of that name there. -/
theorem lookup_of_chunks {path name : String} {l : List String} {loc : Location}
    (hchunks : chunks path = l ++ [name]) (hname : ValidName name)
    (hwalk : t.walk (startOf cwd path) l = .ok loc) :
    t.lookup cwd path = match t.get? (loc ++ [name]) with
      | some n => .ok (loc ++ [name], n)
      | none => .error .notFound := by
  obtain ⟨hempty, hdot, hdots, -⟩ := hname
  have hne : path.isEmpty = false := by
    by_contra hpath
    simp only [Bool.not_eq_false, String.isEmpty_iff] at hpath
    subst hpath
    have := congrArg List.getLast? hchunks
    simp at this
    exact hempty this
  have hslash := endsWith_eq_false_of_chunks hchunks hempty
  have htrim := trimmedChunks_of_getLast hchunks hempty
  have htriv : (name == "" || name == ".") = false := by simp [hempty, hdot]
  have hup : (name == "..") = false := by simp [hdots]
  unfold lookup resolve
  simp only [hne, Bool.false_eq_true, if_false, htrim, List.getLast?_concat, List.dropLast_concat]
  rw [show (if path.startsWith "/" = true then [] else cwd) = startOf cwd path from rfl, hwalk]
  simp only [Except.bind, htriv, hup, Bool.false_eq_true, if_false, bind, Target.location,
    Option.toList_some, hslash]
  cases t.get? (loc ++ [name]) with
  | none => rfl
  | some n => cases n <;> rfl

/-- A path names a directory when it resolves to a location holding one. -/
theorem lookup_eq_directory_iff_resolve {path : String} {loc : Location} :
    t.lookup cwd path = .ok (loc, .directory) ↔
      ∃ target, t.resolve cwd path = .ok target ∧ target.location = loc ∧
        t.get? loc = some .directory := by
  unfold lookup
  cases t.resolve cwd path with
  | error e => simp [bind, Except.bind]
  | ok target =>
    simp only [bind, Except.bind, Except.ok.injEq, exists_eq_left']
    cases hget : t.get? target.location with
    | none =>
      simp only [reduceCtorEq, false_iff, not_and]
      rintro rfl
      simp [hget]
    | some n =>
      cases n with
      | directory =>
        simp only [Except.ok.injEq, Prod.mk.injEq, and_true]
        constructor
        · rintro rfl
          exact ⟨rfl, hget⟩
        · exact fun h => h.1
      | file c x =>
        cases target.slash <;> simp only [Bool.false_eq_true, if_false, if_true, reduceCtorEq,
          Except.ok.injEq, Prod.mk.injEq, false_iff, not_and, and_false] <;>
          (rintro rfl; simp [hget])

/-- **Where a directory is.** A path names a directory exactly when walking all its names
through directories ends at one. -/
theorem lookup_eq_directory_iff {path : String} (hne : path ≠ "") {loc : Location} :
    t.lookup cwd path = .ok (loc, .directory) ↔
      t.walk (startOf cwd path) (chunks path) = .ok loc ∧ t.get? loc = some .directory := by
  rw [walk_chunks, lookup_eq_directory_iff_resolve]
  have hempty : path.isEmpty = false := by simpa using hne
  unfold resolve
  simp only [hempty, Bool.false_eq_true, if_false]
  rw [show (if path.startsWith "/" = true then [] else cwd) = startOf cwd path from rfl]
  cases hlast : (trimmedChunks path).getLast? with
  | none =>
    -- only separators: the path names the root
    have hnil := List.getLast?_eq_none_iff.1 hlast
    have hroot : startOf cwd path = [] := by
      simp [startOf, startsWith_of_trimmedChunks_eq_nil hne hnil]
    simp [hnil, hroot, walk, Target.location]
  | some last =>
    obtain ⟨init, hinit⟩ := List.getLast?_eq_some_iff.1 hlast
    simp only [hinit, List.dropLast_concat, walk_append]
    cases hw : t.walk (startOf cwd path) init with
    | error e => simp [bind, Except.bind]
    | ok d =>
      simp only [bind, Except.bind]
      by_cases htriv : (last == "" || last == ".") = true
      · -- an empty name or `.` stays in the directory reached
        simp [htriv, walk, Target.location]
      · by_cases hup : (last == "..") = true
        · -- `..` goes up without a check
          simp [htriv, hup, walk, Target.location]
        · -- a name must lead to a directory
          simp only [htriv, hup, if_false, Bool.false_eq_true, Target.location, walk]
          cases hd : t.get? (d ++ [last]) with
          | none =>
            simp only [Except.ok.injEq, exists_eq_left', reduceCtorEq, false_and, iff_false, not_and,
              Option.toList_some]
            rintro rfl
            simp [hd]
          | some n =>
            cases n with
            | directory => simp
            | file c x =>
              simp only [Except.ok.injEq, exists_eq_left', reduceCtorEq, false_and, iff_false, not_and,
                Option.toList_some]
              rintro rfl
              simp [hd]

/-- **A name in a directory.** A valid name joined onto a path that names a directory is looked
up in that directory. -/
theorem lookup_join {base name : String} {loc : Location}
    (hdir : t.lookup cwd base = .ok (loc, .directory)) (hname : ValidName name) :
    t.lookup cwd (Path.join base name) = match t.get? (loc ++ [name]) with
      | some n => .ok (loc ++ [name], n)
      | none => .error .notFound := by
  have hne : base ≠ "" := by
    rintro rfl
    simp [lookup, resolve, bind, Except.bind] at hdir
  obtain ⟨l, hjoin, hbase, hstart⟩ := join_chunks hname cwd base
  have hwalk := ((lookup_eq_directory_iff hne).1 hdir).1
  refine lookup_of_chunks hjoin hname ?_
  rw [hstart]
  rcases hbase with hbase | hbase
  · rwa [hbase] at hwalk
  · -- the separator that ends the base leaves an empty name, which does not move the walk
    rw [hbase, walk_append] at hwalk
    cases hl : t.walk (startOf cwd base) l with
    | error e =>
      rw [hl] at hwalk
      cases hwalk
    | ok d =>
      rw [hl] at hwalk
      simpa [Except.bind, walk] using hwalk

end Walk

end FileTree

end ReleaseBuild
