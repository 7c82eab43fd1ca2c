import ReleaseBuild.Proofs.GlobListing
import ReleaseBuild.Proofs.Accepted
import ReleaseBuild.Proofs.VersionText
/-!
# Which runs share a build root

A run builds into `hone_<version>_<release|debug>` under its output directory, and a later run
that only packages looks for that directory again. Two validated runs meet there exactly when
they agree on three things: the output directory as a path, the version as typed, and whether
the build is a debug one (`BuildConfiguration.buildRoot_agreement`).

The name decides the last two. A version is typed as digits and dots, so it holds no `_`, and
the first `_` after `hone_` ends it (`buildRootName_inj`); `1.0`, `01.0` and `1.0.0` are three
names. The name is a valid entry name, so joining it onto the output directory adds exactly one
component (`Path.components_join_name`).

Paths equal as paths are looked up alike: a lookup walks the components of a path, and never
looks at the separators or `.` names that two equal paths may write differently
(`FileTree.walkText_eq_walkComponents`). Paths that differ as paths may still lead to one
directory, through a `..`; path equality does not see that, the file tree does.
-/

set_option autoImplicit false

namespace ReleaseBuild

open FileTree

/-! ## Components of a joined name -/

namespace Path

/-- Only the empty path has no components. -/
theorem components_eq_nil_iff (p : String) : components p = [] ↔ p = "" := by
  constructor
  · intro h
    by_contra hp
    obtain ⟨x, l, hc⟩ : ∃ x l, FileTree.chunks p = x :: l :=
      List.exists_cons_of_ne_nil (by simp [FileTree.chunks, chunks, List.splitOn_ne_nil])
    rw [components_of_chunks hp hc] at h
    -- the first chunk always stands for a component: a root, a `.`, a `..` or a name
    have hlead : leadComponents x ≠ [] := by
      unfold leadComponents
      split
      · simp
      · split
        · simp
        · rename_i hempty hdot
          by_cases hup : x = ".." <;> simp [chunkComponents, hempty, hdot, hup]
    exact hlead (List.append_eq_nil_iff.1 h).1
  · rintro rfl
    rfl

/-- Joining a valid name onto any path adds that name as one last component. -/
theorem components_join_name {n : String} (hn : ValidName n) (P : String) :
    components (join P n) = components P ++ [.normal n] := by
  by_cases hP : P = ""
  · subst hP
    have hjoin : join "" n = n := by
      unfold join
      split <;> simp
    have hchunks : FileTree.chunks n = n :: [] := chunks_of_not_mem hn.2.2.2
    have hnil : chunkComponents [] = [] := rfl
    rw [hjoin, components_of_chunks hn.1 hchunks, (components_eq_nil_iff "").2 rfl, hnil]
    simp [leadComponents, hn.1, hn.2.1, chunkComponents_name hn]
  · rw [components_join hP hn.2.2.2, chunkComponents_name hn]

end Path

/-! ## Lookups read components -/

namespace FileTree

/-- Walk through the directories that a list of components names, from `dir`: the root starts
again at the root, `.` stays, `..` goes up and a name goes into the directory of that name. -/
def walkComponents (t : FileTree) : Location → List PathComponent → Except IoError Location
  | dir, [] => .ok dir
  | _, .root :: cs => walkComponents t [] cs
  | dir, .current :: cs => walkComponents t dir cs
  | dir, .parent :: cs => walkComponents t dir.dropLast cs
  | dir, .normal n :: cs =>
    match t.get? (dir ++ [n]) with
    | some .directory => walkComponents t (dir ++ [n]) cs
    | some (.file ..) => .error .notADirectory
    | none => .error .notFound

variable {t : FileTree} {cwd : Location}

/-- Walking names is walking the components they stand for. -/
theorem walk_eq_walkComponents (d : Location) (l : List String) :
    t.walk d l = t.walkComponents d (Path.chunkComponents l) := by
  induction l generalizing d with
  | nil => rfl
  | cons c cs ih =>
    rw [show c :: cs = [c] ++ cs from rfl, chunkComponents_append]
    by_cases htriv : (c == "" || c == ".") = true
    · have hnone : Path.chunkComponents [c] = [] := by
        simp only [Bool.or_eq_true, beq_iff_eq] at htriv
        rcases htriv with rfl | rfl <;> rfl
      rw [hnone, List.nil_append, ← ih]
      simp [walk, htriv]
    · simp only [Bool.or_eq_true, beq_iff_eq, not_or] at htriv
      by_cases hup : c = ".."
      · subst hup
        simp [walk, Path.chunkComponents, walkComponents, ih]
      · have hname : Path.chunkComponents [c] = [.normal c] := by
          simp [Path.chunkComponents, htriv.1, htriv.2, hup]
        have hstep : (c == "" || c == ".") = false := by simp [htriv.1, htriv.2]
        have hup' : (c == "..") = false := by simp [hup]
        rw [hname]
        -- both walks enter the entry of that name, as its kind decides
        cases hget : t.get? (d ++ [c]) with
        | none => simp [walk, hstep, hup', walkComponents, hget]
        | some node => cases node <;> simp [walk, hstep, hup', walkComponents, hget, ih]

/-- A path that is not empty starts at the root exactly when its first name is empty. -/
theorem startOf_of_chunks {p x : String} {l : List String} (hp : p ≠ "")
    (h : chunks p = x :: l) : startOf cwd p = if x = "" then [] else cwd := by
  obtain ⟨c, cs, hcs⟩ := List.exists_cons_of_ne_nil (mt String.toList_eq_nil_iff.1 hp)
  by_cases hc : c = '/'
  · subst hc
    have hfirst : chunks p = "" :: chunks (String.ofList cs) :=
      chunks_of_toList_eq (A := []) (B := cs) hcs
    have hx : x = "" := by
      rw [h] at hfirst
      exact (List.cons.inj hfirst).1
    simp [startOf, String.startsWith_string_iff, hcs, hx]
  · -- the first name holds the first character, so it is not empty
    obtain ⟨first, rest, hsplit⟩ := List.exists_cons_of_ne_nil (List.splitOn_ne_nil '/' cs)
    have hfirst : chunks p = String.ofList (c :: first) :: rest.map String.ofList := by
      simp [chunks, Path.chunks, hcs, List.splitOn_cons_eq_if_modifyHead, hc, hsplit]
    have hx : x ≠ "" := by
      rw [h] at hfirst
      rw [(List.cons.inj hfirst).1]
      intro hempty
      simpa using congrArg String.toList hempty
    simp [startOf, String.startsWith_string_iff, hcs, Ne.symm hc, hx]

/-- **A walk reads the components.** Walking the names of a path that is not empty is walking
its components from the working directory. -/
theorem walkText_eq_walkComponents {p : String} (hp : p ≠ "") :
    t.walkText cwd p = t.walkComponents cwd (Path.components p) := by
  obtain ⟨x, l, hc⟩ : ∃ x l, chunks p = x :: l :=
    List.exists_cons_of_ne_nil (by simp [chunks, Path.chunks, List.splitOn_ne_nil])
  rw [components_of_chunks hp hc, walkText, hc, startOf_of_chunks hp hc]
  -- the first name is the root, a leading `.`, or an inner name like the others
  by_cases hroot : x = ""
  · subst hroot
    simp [leadComponents, walk, walkComponents, walk_eq_walkComponents]
  · by_cases hdot : x = "."
    · subst hdot
      simp [leadComponents, walk, walkComponents, walk_eq_walkComponents]
    · simp only [hroot, if_false, leadComponents, hdot]
      rw [← chunkComponents_append, List.singleton_append, walk_eq_walkComponents]

/-- Looking up a valid name joined onto a path walks the path, then takes the entry of that
name. -/
theorem lookup_join_eq {P n : String} (hP : P ≠ "") (hn : ValidName n) :
    t.lookup cwd (Path.join P n) = (t.walkText cwd P).bind fun loc =>
      match t.get? (loc ++ [n]) with
      | some node => .ok (loc ++ [n], node)
      | none => .error .notFound := by
  obtain ⟨l, hjoin, hP', hstart⟩ := join_chunks_of_ne hP hn.2.2.2 cwd
  rw [walkText_of_chunks hP']
  cases hwalk : t.walk (startOf cwd P) l with
  | error e => exact lookup_of_chunks_error hjoin hn.1 (by rw [hstart, hwalk])
  | ok loc => exact lookup_of_chunks hjoin hn (by rw [hstart, hwalk])

/-- **Equal paths are looked up alike.** A valid name joined onto two paths with the same
components names the same entry in every tree, from every working directory. -/
theorem lookup_join_of_components_eq {P Q n : String} (h : Path.components P = Path.components Q)
    (hn : ValidName n) : t.lookup cwd (Path.join P n) = t.lookup cwd (Path.join Q n) := by
  by_cases hP : P = ""
  · have hQ : Q = "" := (Path.components_eq_nil_iff Q).1 (by rw [← h, hP]; rfl)
    rw [hP, hQ]
  · have hQ : Q ≠ "" := fun hQ => hP ((Path.components_eq_nil_iff P).1 (by rw [h, hQ]; rfl))
    rw [lookup_join_eq hP hn, lookup_join_eq hQ hn, walkText_eq_walkComponents hP,
      walkText_eq_walkComponents hQ, h]

theorem isDirectory?_join_of_components_eq {P Q n : String}
    (h : Path.components P = Path.components Q) (hn : ValidName n) :
    t.isDirectory? cwd (Path.join P n) = t.isDirectory? cwd (Path.join Q n) := by
  simp only [isDirectory?, stat, lookup_join_of_components_eq h hn]

end FileTree

/-! ## The build root's name -/

namespace Version

/-- A written version is digits and dots. -/
theorem Written.digit_or_dot {s : String} {a b : Nat} {c : Option Nat} (h : Written s a b c) :
    ∀ ch ∈ s.toList, ch = '.' ∨ ('0' ≤ ch ∧ ch ≤ '9') := by
  cases h with
  | two hM hN hs =>
    simp only [hs, List.mem_append, List.mem_cons]
    rintro ch (hM' | rfl | hN')
    · exact .inr (hM.2 ch hM')
    · exact .inl rfl
    · exact .inr (hN.2 ch hN')
  | three hM hN hB hs =>
    simp only [hs, List.mem_append, List.mem_cons]
    rintro ch ((hM' | rfl | hN') | rfl | hB')
    · exact .inr (hM.2 ch hM')
    · exact .inl rfl
    · exact .inr (hN.2 ch hN')
    · exact .inl rfl
    · exact .inr (hB.2 ch hB')

/-- The text of a version that was read is digits and dots. -/
theorem text_digit_or_dot {s : String} {v : Version} (h : parse s = .ok v) :
    ∀ ch ∈ v.text.toList, ch = '.' ∨ ('0' ≤ ch ∧ ch ≤ '9') := by
  obtain ⟨htext, build, hw, -⟩ := (parse_eq_ok_iff s v).1 h
  rw [htext]
  exact hw.digit_or_dot

end Version

namespace BuildConfiguration

theorem buildRootName_toList (v : Version) (t : BuildType) :
    (buildRootName v t).toList = ['h', 'o', 'n', 'e', '_'] ++ v.text.toList ++ '_' :: t.profile.toList := by
  simp [buildRootName]

theorem profile_inj {t₁ t₂ : BuildType} (h : t₁.profile.toList = t₂.profile.toList) : t₁ = t₂ := by
  cases t₁ <;> cases t₂ <;> first | rfl | exact absurd h (by decide)

/-- **The build root's name tells the version and the build type apart.** A version text holds
no `_`, so the first `_` after `hone_` ends it. -/
theorem buildRootName_inj {v₁ v₂ : Version} (h₁ : '_' ∉ v₁.text.toList) (h₂ : '_' ∉ v₂.text.toList)
    (t₁ t₂ : BuildType) :
    buildRootName v₁ t₁ = buildRootName v₂ t₂ ↔ v₁.text = v₂.text ∧ t₁ = t₂ := by
  constructor
  · intro h
    have hchars := congrArg String.toList h
    rw [buildRootName_toList, buildRootName_toList, List.append_assoc, List.append_assoc] at hchars
    replace hchars := List.append_cancel_left hchars
    -- splitting at the first `_` gives the text, and what follows it the profile
    have hsplit := congrArg (List.splitOn '_') hchars
    rw [List.splitOn_append_cons_self_of_not_mem h₁,
      List.splitOn_append_cons_self_of_not_mem h₂] at hsplit
    have htext : v₁.text.toList = v₂.text.toList := (List.cons.inj hsplit).1
    rw [htext] at hchars
    have hprofile := (List.cons.inj (List.append_cancel_left hchars)).2
    exact ⟨String.toList_inj.1 htext, profile_inj hprofile⟩
  · rintro ⟨htext, rfl⟩
    simp [buildRootName, htext]

/-- The build root's name is a name an entry of a directory can have. -/
theorem validName_buildRootName {v : Version} (hv : '/' ∉ v.text.toList) (t : BuildType) :
    ValidName (buildRootName v t) := by
  have hchars := buildRootName_toList v t
  have hprofile : '/' ∉ t.profile.toList := by cases t <;> decide
  refine ⟨?_, ?_, ?_, ?_⟩
  · intro h
    simp [h] at hchars
  · intro h
    simp [h] at hchars
  · intro h
    simp [h] at hchars
  · rw [hchars]
    simp [hv, hprofile]

variable {args : ReleaseArgs} {env : ToolEnvironment} {settings : Settings} {tree : FileTree}
  {cwd : String} {c : BuildConfiguration}

/-- A validated configuration's build root is its output directory joined with the name of its
version and build type, and its version was read from a text. -/
theorem buildRoot_of_validate (h : validate args env settings tree cwd = .ok c) :
    c.buildRoot = Path.join c.outputRoot (buildRootName c.version c.buildType) ∧
      ∀ ch ∈ c.version.text.toList, ch = '.' ∨ ('0' ≤ ch ∧ ch ≤ '9') := by
  obtain ⟨-, -, v, hv, rfl⟩ := (validate_eq_ok_iff args env settings tree cwd c).1 h
  obtain ⟨text, -, hparse⟩ := (versionOf_fst_eq_some_iff _ _).1 hv
  exact ⟨rfl, Version.text_digit_or_dot hparse⟩

/-- A validated build root is one valid name below the output directory, and the version in
that name holds no `_`. -/
theorem buildRootName_of_validate (h : validate args env settings tree cwd = .ok c) :
    c.buildRoot = Path.join c.outputRoot (buildRootName c.version c.buildType) ∧
      ValidName (buildRootName c.version c.buildType) ∧ '_' ∉ c.version.text.toList := by
  obtain ⟨hroot, hchars⟩ := buildRoot_of_validate h
  -- neither `/` nor `_` is a digit or a dot
  have hnot (ch : Char) (hdot : ch ≠ '.') (hdigit : ¬('0' ≤ ch ∧ ch ≤ '9')) :
      ch ∉ c.version.text.toList := fun hmem => (hchars ch hmem).elim hdot hdigit
  refine ⟨hroot, validName_buildRootName (hnot '/' (by decide) (by decide)) _,
    hnot '_' (by decide) (by decide)⟩

theorem buildType_eq_iff (c₁ c₂ : BuildConfiguration) :
    c₁.buildType = c₂.buildType ↔ c₁.debug = c₂.debug := by
  unfold buildType BuildType.ofDebug
  cases c₁.debug <;> cases c₂.debug <;> simp

end BuildConfiguration

/-! ## Two runs -/

namespace BuildConfiguration

variable {args₁ args₂ : ReleaseArgs} {env₁ env₂ : ToolEnvironment}
  {settings₁ settings₂ : Settings} {tree₁ tree₂ : FileTree} {cwd₁ cwd₂ : String}
  {c₁ c₂ : BuildConfiguration}

/-- **Which runs share a build root.** For two validated runs, from any arguments, tool
environments, settings, trees and working directories: the build roots are equal as paths
exactly when the output directories are, the versions are typed alike and both or neither are
debug builds. The build root is the output directory with one more component,
`hone_<version>_<debug|release>`. Runs that agree on the three are looked up alike: in every
tree and from every working directory, the directory check of one build root answers as the
other's. Runs that differ in the version text or the build type have build roots in different
places. -/
theorem buildRoot_agreement (h₁ : validate args₁ env₁ settings₁ tree₁ cwd₁ = .ok c₁)
    (h₂ : validate args₂ env₂ settings₂ tree₂ cwd₂ = .ok c₂) :
    (Path.sameAs c₁.buildRoot c₂.buildRoot = true ↔
      Path.sameAs c₁.outputRoot c₂.outputRoot = true ∧ c₁.version.text = c₂.version.text ∧
        c₁.debug = c₂.debug) ∧
    Path.components c₁.buildRoot = Path.components c₁.outputRoot ++
      [.normal ("hone_" ++ c₁.version.text ++ "_" ++ if c₁.debug then "debug" else "release")] ∧
    (Path.sameAs c₁.outputRoot c₂.outputRoot = true → c₁.version.text = c₂.version.text →
      c₁.debug = c₂.debug → ∀ (t : FileTree) (cwd : Location),
        t.isDirectory? cwd c₂.buildRoot = t.isDirectory? cwd c₁.buildRoot) ∧
    (c₁.version.text ≠ c₂.version.text ∨ c₁.debug ≠ c₂.debug →
      ∀ cwd : Location, place cwd c₁.buildRoot ≠ place cwd c₂.buildRoot) := by
  obtain ⟨hroot₁, hname₁, hus₁⟩ := buildRootName_of_validate h₁
  obtain ⟨hroot₂, hname₂, hus₂⟩ := buildRootName_of_validate h₂
  have hnames := buildRootName_inj hus₁ hus₂ c₁.buildType c₂.buildType
  rw [buildType_eq_iff] at hnames
  refine ⟨?same, ?child, ?agree, ?apart⟩
  case same =>
    rw [Path.sameAs, Path.sameAs, beq_iff_eq, beq_iff_eq, hroot₁, hroot₂,
      Path.components_join_name hname₁, Path.components_join_name hname₂, ← hnames]
    constructor
    · intro h
      obtain ⟨hout, hlast⟩ := List.append_inj' h rfl
      exact ⟨hout, by simpa using hlast⟩
    · rintro ⟨hout, hname⟩
      rw [hout, hname]
  case child =>
    rw [hroot₁, Path.components_join_name hname₁]
    simp [buildRootName, buildType, BuildType.profile_ofDebug]
  case agree =>
    intro hout htext hdebug t cwd
    have hcomponents : Path.components c₁.outputRoot = Path.components c₂.outputRoot := by
      simpa [Path.sameAs] using hout
    rw [hroot₁, hroot₂, ← hnames.2 ⟨htext, hdebug⟩]
    exact isDirectory?_join_of_components_eq hcomponents.symm hname₁
  case apart =>
    intro hdiff cwd hplace
    rw [hroot₁, hroot₂, place_join hname₁, place_join hname₂] at hplace
    obtain ⟨-, hlast⟩ := List.append_inj' hplace rfl
    obtain ⟨htext, hdebug⟩ := hnames.1 (by simpa using hlast)
    exact hdiff.elim (· htext) (· hdebug)

/-- Versions `1.0` and `01.0`, with the same numbers, validated from `/w` for one output
directory: their build roots differ. -/
theorem buildRoot_agreement_retyped :
    let args₁ : ReleaseArgs := { stage := "b", version := some "1.0", scriptDir := "s" }
    let args₂ : ReleaseArgs := { stage := "b", version := some "01.0", scriptDir := "s" }
    let c₁ := configurationOf args₁ {} {} {} "/w" ⟨1, 0, 0, "1.0", by decide, by decide, by decide⟩
    let c₂ := configurationOf args₂ {} {} {} "/w" ⟨1, 0, 0, "01.0", by decide, by decide, by decide⟩
    validate args₁ {} {} {} "/w" = .ok c₁ ∧ validate args₂ {} {} {} "/w" = .ok c₂ ∧
      c₁.version.major = c₂.version.major ∧ c₁.version.minor = c₂.version.minor ∧
      c₁.version.build = c₂.version.build ∧ Path.sameAs c₁.buildRoot c₂.buildRoot = false ∧
      ((Path.sameAs c₁.buildRoot c₂.buildRoot = true ↔
        Path.sameAs c₁.outputRoot c₂.outputRoot = true ∧ c₁.version.text = c₂.version.text ∧
          c₁.debug = c₂.debug) ∧
      Path.components c₁.buildRoot = Path.components c₁.outputRoot ++
        [.normal ("hone_" ++ c₁.version.text ++ "_" ++ if c₁.debug then "debug" else "release")] ∧
      (Path.sameAs c₁.outputRoot c₂.outputRoot = true → c₁.version.text = c₂.version.text →
        c₁.debug = c₂.debug → ∀ (t : FileTree) (cwd : Location),
          t.isDirectory? cwd c₂.buildRoot = t.isDirectory? cwd c₁.buildRoot) ∧
      (c₁.version.text ≠ c₂.version.text ∨ c₁.debug ≠ c₂.debug →
        ∀ cwd : Location, place cwd c₁.buildRoot ≠ place cwd c₂.buildRoot)) := by
  intro args₁ args₂ c₁ c₂
  have h₁ : validate args₁ {} {} {} "/w" = .ok c₁ :=
    (validate_eq_ok_iff args₁ {} {} {} "/w" c₁).2 ⟨by cbv, by cbv, _, by cbv, rfl⟩
  have h₂ : validate args₂ {} {} {} "/w" = .ok c₂ :=
    (validate_eq_ok_iff args₂ {} {} {} "/w" c₂).2 ⟨by cbv, by cbv, _, by cbv, rfl⟩
  exact ⟨h₁, h₂, rfl, rfl, rfl, by decide +kernel, buildRoot_agreement h₁ h₂⟩

/-- An output directory written through `..` names the directory of another one: a build run
with output `out` and a packaging run with output `sub/../out`, both from `/w`, have output
directories that differ as paths, yet after the build run the packaging run's directory check
finds the build root that the build run created. -/
theorem dotdot_output_finds_buildRoot :
    let t₀ : FileTree := ⟨[(["w"], .directory), (["w", "s"], .directory), (["w", "sub"], .directory)]⟩
    let v : Version := ⟨1, 0, 0, "1.0", by decide, by decide, by decide⟩
    let args₁ : ReleaseArgs :=
      { stage := "b", version := some "1.0", output := some "out", scriptDir := "s", noSign := true }
    let args₂ : ReleaseArgs :=
      { stage := "i", version := some "1.0", output := some "sub/../out", scriptDir := "s",
        noSign := true }
    let env₂ : ToolEnvironment := { installerCompilerOnPath := some "iscc" }
    let c₁ := configurationOf args₁ {} {} t₀ "/w" v
    let c₂ := configurationOf args₂ env₂ {} t₀ "/w" v
    let now : Timestamp := ⟨2026, 1, 1, 0, 0, 0, 0⟩
    let after := (Release.run c₁ now).run' Runner.scripted { files := t₀, cwd := "/w" }
    validate args₁ {} {} t₀ "/w" = .ok c₁ ∧ validate args₂ env₂ {} t₀ "/w" = .ok c₂ ∧
      c₁.stages = ⟨true, false⟩ ∧ c₂.stages = ⟨false, true⟩ ∧
      Path.sameAs c₁.outputRoot c₂.outputRoot = false ∧ c₁.version.text = c₂.version.text ∧
      c₁.debug = c₂.debug ∧ t₀.isDirectory? ["w"] c₂.buildRoot = false ∧
      after.1 = .ok [] ∧ after.2.files.isDirectory? ["w"] c₂.buildRoot = true := by
  intro t₀ v args₁ args₂ env₂ c₁ c₂ now after
  have hstages₁ : c₁.stages = ⟨true, false⟩ := by
    simp [c₁, configurationOf, args₁, StageSet.ofTokens, String.contains_char_eq]
  have hstages₂ : c₂.stages = ⟨false, true⟩ := by
    simp [c₂, configurationOf, args₂, StageSet.ofTokens, String.contains_char_eq]
  -- the run of `c₁` is its build stage alone
  have hrun : Release.run c₁ now = (do Release.build c₁ now; pure []) := by
    simp [Release.run, hstages₁]
  have hafter : after = (do Release.build c₁ now; pure []).run' Runner.scripted
      { files := t₀, cwd := "/w" } := by
    simp only [after, hrun]
  refine ⟨(validate_eq_ok_iff args₁ {} {} t₀ "/w" c₁).2 ⟨by cbv, by cbv, _, by cbv, rfl⟩,
    (validate_eq_ok_iff args₂ env₂ {} t₀ "/w" c₂).2 ⟨by cbv, by cbv, _, by cbv, rfl⟩,
    hstages₁, hstages₂, by decide +kernel, rfl, rfl, by decide +kernel, ?_⟩
  rw [hafter]
  decide +kernel

end BuildConfiguration

end ReleaseBuild
