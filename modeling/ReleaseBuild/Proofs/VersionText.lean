import Mathlib.Data.List.Induction
import Mathlib.Data.Nat.Digits.Defs
import ReleaseBuild.Version
/-!
# Which texts are versions

A version is typed as `M.N` or `M.N.B`, each of `M`, `N` and `B` a non-empty run of ASCII digits,
with nothing else in the text: no sign, no blank, no trailing newline. That is the language of the
pattern `^([0-9]+)\.([0-9]+)(?:\.([0-9]+))?$`, written here as the grammar `Written`, which also
reads each run as its decimal value (`decimal`, through `Nat.ofDigits`), leading zeros allowed and
with no bound, so a run too long for a machine word is just a large number.

`Version.parse_spec` says what reading gives for every text. A text reads as a version exactly when
it is written so with its numbers in range; the version then holds the numbers written and the
text as typed. A text not written so has the one format problem. A text written so with numbers out
of range has one problem per such part, in the order major, minor, build.

The reader splits the text at its dots. The split and the grammar meet in two library facts:
joining the pieces of a split gives the text back (`List.intercalate_splitOn`), and splitting runs
joined by a dot that none of them holds gives the runs back (`List.splitOn_intercalate`).
-/

set_option autoImplicit false

namespace ReleaseBuild

namespace Version

/-! ## The grammar -/

/-- The decimal value of a run of digits written most significant first. -/
def decimal (digits : List Char) : Nat :=
  Nat.ofDigits 10 (digits.reverse.map fun c => c.toNat - '0'.toNat)

/-- A non-empty run of ASCII digits. -/
def DigitRun (cs : List Char) : Prop :=
  cs ≠ [] ∧ ∀ c ∈ cs, '0' ≤ c ∧ c ≤ '9'

/-- **The version grammar.** The text is two or three runs of digits joined by dots; the indices
are the values of the runs, the third one only when it is written. -/
inductive Written (s : String) : Nat → Nat → Option Nat → Prop
  | two {M N : List Char} : DigitRun M → DigitRun N → s.toList = M ++ '.' :: N →
      Written s (decimal M) (decimal N) none
  | three {M N B : List Char} : DigitRun M → DigitRun N → DigitRun B →
      s.toList = M ++ '.' :: N ++ '.' :: B → Written s (decimal M) (decimal N) (some (decimal B))

/-! ## The reader's pieces against the grammar -/

/-- A digit appended at the end multiplies the value read so far by ten. -/
theorem decimal_append_singleton (cs : List Char) (c : Char) :
    decimal (cs ++ [c]) = (c.toNat - '0'.toNat) + 10 * decimal cs := by
  simp [decimal, Nat.ofDigits_cons]

/-- The reader's left-to-right accumulation is the decimal value. -/
theorem digitValue_eq_decimal (cs : List Char) : digitValue cs = decimal cs := by
  induction cs using List.reverseRecOn with
  | nil => rfl
  | append_singleton cs c ih =>
    rw [decimal_append_singleton, ← ih, digitValue, List.foldl_append, ← digitValue]
    simp only [List.foldl_cons, List.foldl_nil]
    omega

theorem isDigitRun_iff (cs : List Char) : isDigitRun cs = true ↔ DigitRun cs := by
  have hdigit (c : Char) : c.isDigit = true ↔ '0' ≤ c ∧ c ≤ '9' := by
    simp [Char.isDigit, Char.le_def]
  simp [isDigitRun, DigitRun, hdigit]

theorem DigitRun.dot_not_mem {cs : List Char} (h : DigitRun cs) : '.' ∉ cs := by
  intro hdot
  have := h.2 '.' hdot
  simp [Char.le_def] at this

/-- Runs joined by dots split back into the runs. -/
theorem splitOn_dots (ls : List (List Char)) (hls : ls ≠ []) (h : ∀ l ∈ ls, DigitRun l) :
    (['.'].intercalate ls).splitOn '.' = ls :=
  List.splitOn_intercalate '.' (fun l hl => (h l hl).dot_not_mem) hls

/-- **The shape of a text.** The reader finds numbers in a text exactly when the text is written
by the grammar with those numbers. -/
theorem shape_eq_some_iff (s : String) (major minor : Nat) (build : Option Nat) :
    shape s = some (major, minor, build) ↔ Written s major minor build := by
  -- the text is the pieces of its split, joined by dots
  have hjoin : ['.'].intercalate (s.toList.splitOn '.') = s.toList := List.intercalate_splitOn '.'
  constructor
  · intro h
    unfold shape at h
    split at h
    · rename_i M N hsplit
      rw [hsplit] at hjoin
      split at h
      · rename_i hruns
        simp only [Bool.and_eq_true, isDigitRun_iff] at hruns
        simp only [Option.some.injEq, Prod.mk.injEq] at h
        obtain ⟨rfl, rfl, rfl⟩ := h
        rw [digitValue_eq_decimal, digitValue_eq_decimal]
        exact .two hruns.1 hruns.2 (by simpa using hjoin.symm)
      · cases h
    · rename_i M N B hsplit
      rw [hsplit] at hjoin
      split at h
      · rename_i hruns
        simp only [Bool.and_eq_true, isDigitRun_iff] at hruns
        simp only [Option.some.injEq, Prod.mk.injEq] at h
        obtain ⟨rfl, rfl, rfl⟩ := h
        rw [digitValue_eq_decimal, digitValue_eq_decimal, digitValue_eq_decimal]
        exact .three hruns.1.1 hruns.1.2 hruns.2 (by simpa using hjoin.symm)
      · cases h
    · cases h
  · intro h
    cases h with
    | two hM hN htext =>
      rename_i M N
      have hsplit : s.toList.splitOn '.' = [M, N] := by
        rw [htext]
        simpa using splitOn_dots [M, N] (by simp) (by simp [hM, hN])
      simp [shape, hsplit, (isDigitRun_iff _).2 hM, (isDigitRun_iff _).2 hN,
        digitValue_eq_decimal]
    | three hM hN hB htext =>
      rename_i M N B
      have hsplit : s.toList.splitOn '.' = [M, N, B] := by
        rw [htext]
        simpa using splitOn_dots [M, N, B] (by simp) (by simp [hM, hN, hB])
      simp [shape, hsplit, (isDigitRun_iff _).2 hM, (isDigitRun_iff _).2 hN,
        (isDigitRun_iff _).2 hB, digitValue_eq_decimal]

/-- The parts out of range, listed in order. -/
theorem partsOutOfRange_eq (major minor build : Nat) :
    partsOutOfRange major minor build =
      (if 256 ≤ major then [.major] else []) ++ (if 256 ≤ minor then [.minor] else []) ++
        (if 65536 ≤ build then [.build] else []) := by
  -- each part is listed exactly when its value reaches its limit
  by_cases hmajor : 256 ≤ major <;> by_cases hminor : 256 ≤ minor <;>
    by_cases hbuild : 65536 ≤ build <;> simp [partsOutOfRange, VersionPart.limit, *]

/-! ## Reading a text -/

/-- A text that the grammar does not write has the one format problem. -/
theorem parse_eq_malformed {s : String} (h : ∀ a b c, ¬Written s a b c) :
    parse s = .error [.malformed s] := by
  have hshape : shape s = none := by
    cases hs : shape s with
    | none => rfl
    | some abc =>
      obtain ⟨a, b, c⟩ := abc
      exact absurd ((shape_eq_some_iff s a b c).1 hs) (h a b c)
  simp [parse, hshape]

/-- A written text with a number out of range has one problem per such part, in order. -/
theorem parse_eq_outOfRange {s : String} {a b : Nat} {c : Option Nat} (h : Written s a b c)
    (hrange : ¬(a < 256 ∧ b < 256 ∧ c.getD 0 < 65536)) :
    parse s = .error ((if 256 ≤ a then [.outOfRange s .major] else []) ++
      (if 256 ≤ b then [.outOfRange s .minor] else []) ++
      (if 65536 ≤ c.getD 0 then [.outOfRange s .build] else [])) := by
  have hshape := (shape_eq_some_iff s a b c).2 h
  simp only [parse, hshape, hrange, dite_false, partsOutOfRange_eq]
  split_ifs <;> rfl

/-- **Reading a version.** A text reads as `v` exactly when it is written by the grammar with the
numbers of `v`, the build being `0` when it is not written, and `v` keeps the text as typed. -/
theorem parse_eq_ok_iff (s : String) (v : Version) :
    parse s = .ok v ↔ v.text = s ∧ ∃ build, Written s v.major v.minor build ∧ v.build = build.getD 0 := by
  constructor
  · intro h
    cases hs : shape s with
    | none => simp [parse, hs] at h
    | some abc =>
      obtain ⟨a, b, c⟩ := abc
      have hw := (shape_eq_some_iff s a b c).1 hs
      simp only [parse, hs] at h
      split at h
      · cases h
        exact ⟨rfl, c, hw, rfl⟩
      · cases h
  · rintro ⟨htext, build, hw, hbuild⟩
    have hshape := (shape_eq_some_iff s _ _ _).2 hw
    have hrange : v.major < 256 ∧ v.minor < 256 ∧ build.getD 0 < 65536 :=
      ⟨v.major_lt, v.minor_lt, hbuild ▸ v.build_lt⟩
    simp only [parse, hshape, hrange, and_self, dite_true, Except.ok.injEq]
    cases v
    simp_all

/-- **What reading a version gives, for every text.** It is a version exactly when the text is
`M.N` or `M.N.B` in ASCII digits with major and minor at most 255 and the build at most 65535; the
version then holds the numbers written (build `0` when absent) and the text as typed, and lists
its numbers in canonical decimal joined by commas. A text of another shape has the one format
problem; a text of this shape out of range has one problem per part out of range, in the order
major, minor, build. -/
theorem parse_spec (s : String) :
    ((∃ v, parse s = .ok v) ↔
      ∃ a b c, Written s a b c ∧ a ≤ 255 ∧ b ≤ 255 ∧ c.getD 0 ≤ 65535) ∧
    (∀ v, parse s = .ok v ↔
      v.text = s ∧ ∃ build, Written s v.major v.minor build ∧ v.build = build.getD 0) ∧
    (∀ v, parse s = .ok v →
      v.numericList = ",".intercalate ([v.major, v.minor, v.build].map toString)) ∧
    ((∀ a b c, ¬Written s a b c) → parse s = .error [.malformed s]) ∧
    (∀ a b c, Written s a b c → ¬(a ≤ 255 ∧ b ≤ 255 ∧ c.getD 0 ≤ 65535) →
      parse s = .error ((if 256 ≤ a then [.outOfRange s .major] else []) ++
        (if 256 ≤ b then [.outOfRange s .minor] else []) ++
        (if 65536 ≤ c.getD 0 then [.outOfRange s .build] else []))) := by
  refine ⟨⟨?_, ?_⟩, parse_eq_ok_iff s, fun v _ => rfl, fun h => parse_eq_malformed h,
    fun a b c hw hrange => parse_eq_outOfRange hw (by omega)⟩
  · rintro ⟨v, hv⟩
    obtain ⟨-, build, hw, hbuild⟩ := (parse_eq_ok_iff s v).1 hv
    have hmajor := v.major_lt
    have hminor := v.minor_lt
    have hbuild' := v.build_lt
    exact ⟨v.major, v.minor, build, hw, by omega, by omega, by omega⟩
  · rintro ⟨a, b, c, hw, ha, hb, hc⟩
    exact ⟨⟨a, b, c.getD 0, s, by omega, by omega, by omega⟩,
      (parse_eq_ok_iff s _).2 ⟨rfl, c, hw, rfl⟩⟩

/-- A part too large for a 32-bit word is out of range like any other; leading zeros count
for nothing. -/
example : parse "4294967296.0256" =
    .error [.outOfRange "4294967296.0256" .major, .outOfRange "4294967296.0256" .minor] := by
  decide

end Version

end ReleaseBuild
