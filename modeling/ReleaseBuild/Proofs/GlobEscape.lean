import Mathlib
import ReleaseBuild.Glob.Pattern
/-!
# Escaped patterns

`GlobPattern.escape` wraps each of `? * [ ]` in brackets, so that a directory name handed to a
pattern stands for itself. This module follows an escaped text through reading and matching:

* reading an escaped text never faults, and each character of the original becomes one token
  admitting exactly that character (`readFrom_escaped`); so does a star followed by an escaped
  text (`parse_star_escaped`);
* the tokens of an escaped name match exactly that name (`matchFrom_escaped`), and a star
  followed by them matches exactly the texts ending in it (`matchFrom_star_escaped`);
* an escaped name is read literally exactly when it has none of the four characters
  (`literalText?_escaped`).
-/

set_option autoImplicit false

namespace ReleaseBuild

namespace GlobPattern

/-! ## Escaping one character at a time -/

/-- Whether `escape` wraps a character in brackets. -/
def isSpecial (c : Char) : Bool := c == '?' || c == '*' || c == '[' || c == ']'

/-- The characters `escape` writes for one character. -/
def escapeChar (c : Char) : List Char := if isSpecial c then ['[', c, ']'] else [c]

/-- The token that the escaped form of a character reads to. -/
def escapedToken (c : Char) : GlobToken := if isSpecial c then .anyWithin [.single c] else .char c

theorem toList_escape (text : String) :
    (escape text).toList = text.toList.flatMap escapeChar := by
  simp only [escape, String.toList_join, List.map_map, List.flatMap]
  congr 1
  apply List.map_congr_left
  intro c _
  simp only [Function.comp_apply, escapeChar]
  by_cases hc : isSpecial c
  · have hc' : (c == '?' || c == '*' || c == '[' || c == ']') = true := hc
    rw [if_pos hc', if_pos hc]
    simp
  · have hc' : ¬(c == '?' || c == '*' || c == '[' || c == ']') = true := hc
    rw [if_neg hc', if_neg hc]
    simp

theorem length_le_escaped (l : List Char) : l.length ≤ (l.flatMap escapeChar).length := by
  induction l with
  | nil => simp
  | cons c l ih =>
    have : 1 ≤ (escapeChar c).length := by unfold escapeChar; split <;> simp
    simp only [List.flatMap_cons, List.length_append, List.length_cons]
    omega

/-- The separator is not special, and escaping never writes one. -/
theorem sep_not_mem_escapeChar {c : Char} (hc : c ≠ '/') : '/' ∉ escapeChar c := by
  unfold escapeChar
  split <;> simp [Ne.symm hc]

/-! ## Reading an escaped text -/

section Reading

variable {cs : Array Char} {pre rest : List Char}

theorem charAt_eq_getD (i : Nat) : charAt cs i = cs.toList.getD i ' ' := by
  simp only [charAt, Array.getD]
  split
  · rename_i h
    simp [List.getD_eq_getElem?_getD, h]
  · rename_i h
    simp [List.getD_eq_getElem?_getD, h]

theorem charAt_of_toList {c : Char} (h : cs.toList = pre ++ c :: rest) :
    charAt cs pre.length = c := by
  rw [charAt_eq_getD, h]
  simp [List.getD_eq_getElem?_getD]

theorem size_le_of_toList {c : Char} (h : cs.toList = pre ++ c :: rest) :
    ¬cs.size ≤ pre.length := by
  rw [← Array.length_toList, h]
  simp

/-- The bracket class `[c]` reads to the class of `c` alone, three characters on. -/
theorem bracketClass_of_escaped {c : Char} (hc : c ≠ '!')
    (h : cs.toList = pre ++ '[' :: c :: ']' :: rest) :
    bracketClass cs pre.length = some (.anyWithin [.single c], pre.length + 3) := by
  have hsize : pre.length + 3 ≤ cs.size := by
    rw [← Array.length_toList, h]
    simp
  have hnext : charAt cs (pre.length + 1) = c := by
    simpa using charAt_of_toList (show cs.toList = (pre ++ ['[']) ++ c :: ']' :: rest by simp [h])
  have hdrop2 : cs.toList.drop (pre.length + 2) = ']' :: rest := by
    rw [h]
    simp [List.drop_append]
  have hdrop1 : cs.toList.drop (pre.length + 1) = c :: ']' :: rest := by
    rw [h]
    simp [List.drop_append]
  have hclose : closingBracket cs (pre.length + 2) = some (pre.length + 2) := by
    simp [closingBracket, hdrop2, List.findIdx?_cons]
  have hbang : (c == '!') = false := by simpa using hc
  simp [bracketClass, hnext, hclose, hsize, hbang, hc, hdrop1, charSpecs]

/-- **Reading an escaped text.** Each character of the original is read into its token, using
one step of fuel, however many characters its escaped form has. -/
theorem readFrom_escaped (l : List Char) (h : cs.toList = pre ++ l.flatMap escapeChar ++ rest)
    (fuel : Nat) (acc : List GlobToken) (rec : Bool) :
    readFrom cs (fuel + l.length) pre.length acc rec =
      readFrom cs fuel (pre.length + (l.flatMap escapeChar).length)
        ((l.map escapedToken).reverse ++ acc) rec := by
  induction l generalizing pre acc with
  | nil => simp
  | cons c l ih =>
    -- one character read, then the rest from after its escaped form
    have hstep : readFrom cs (fuel + l.length + 1) pre.length acc rec =
        readFrom cs (fuel + l.length) (pre ++ escapeChar c).length (escapedToken c :: acc) rec := by
      by_cases hs : isSpecial c
      · have hcs : cs.toList = pre ++ '[' :: c :: ']' :: (l.flatMap escapeChar ++ rest) := by
          simp [h, escapeChar, hs]
        have hbang : c ≠ '!' := by
          rintro rfl
          simp [isSpecial] at hs
        simp only [readFrom, size_le_of_toList hcs, charAt_of_toList hcs, if_false]
        simp only [bracketClass_of_escaped hbang hcs]
        simp [escapeChar, escapedToken, hs]
      · have hcs : cs.toList = pre ++ c :: (l.flatMap escapeChar ++ rest) := by
          simp [h, escapeChar, hs]
        have hq : c ≠ '?' := fun hq => hs (by simp [isSpecial, hq])
        have hstar : c ≠ '*' := fun hq => hs (by simp [isSpecial, hq])
        have hopen : c ≠ '[' := fun hq => hs (by simp [isSpecial, hq])
        simp [readFrom, size_le_of_toList hcs, charAt_of_toList hcs, hq, hstar, hopen,
          escapeChar, escapedToken, hs]
    have hrest : cs.toList = (pre ++ escapeChar c) ++ l.flatMap escapeChar ++ rest := by
      simp [h]
    rw [show fuel + (c :: l).length = fuel + l.length + 1 by simp; omega, hstep, ih hrest]
    simp [Nat.add_assoc]

/-- Reading stops with what it has once the text is used up. -/
theorem readFrom_of_size_le {i : Nat} (h : cs.size ≤ i) (fuel : Nat) (acc : List GlobToken)
    (rec : Bool) : readFrom cs fuel i acc rec = .ok ⟨acc.reverse, rec⟩ := by
  cases fuel with
  | zero => rfl
  | succ fuel => simp [readFrom, h]

end Reading

/-- An escaped text reads into the tokens of its characters. -/
theorem parse_escaped (l : List Char) :
    parse (String.ofList (l.flatMap escapeChar)) = .ok ⟨l.map escapedToken, false⟩ := by
  have hlen := length_le_escaped l
  have h := readFrom_escaped l
    (show (l.flatMap escapeChar).toArray.toList = [] ++ l.flatMap escapeChar ++ [] by simp)
    ((l.flatMap escapeChar).length - l.length) [] false
  simp only [List.length_nil, Nat.zero_add, List.append_nil] at h
  simp only [parse, String.toList_ofList, List.size_toArray]
  rw [show (l.flatMap escapeChar).length = (l.flatMap escapeChar).length - l.length + l.length
    by omega, h, readFrom_of_size_le (by simp)]
  simp

/-- An escaped text never starts with a star: a star is written in brackets. -/
theorem head?_escaped_ne_star (l : List Char) : (l.flatMap escapeChar).head? ≠ some '*' := by
  cases l with
  | nil => simp
  | cons d ds =>
    by_cases hs : isSpecial d
    · simp [escapeChar, hs]
    · have hd : d ≠ '*' := fun hd => hs (by simp [isSpecial, hd])
      simp [escapeChar, hs, hd]

/-- A lone star reads into a run of any characters. -/
theorem readFrom_star {cs : Array Char} {pre rest : List Char}
    (h : cs.toList = pre ++ '*' :: rest) (hrest : rest.head? ≠ some '*') (fuel : Nat)
    (acc : List GlobToken) (rec : Bool) :
    readFrom cs (fuel + 1) pre.length acc rec =
      readFrom cs fuel (pre.length + 1) (.anySequence :: acc) rec := by
  have hrun : starRun cs pre.length = 1 := by
    rw [starRun, h, List.drop_left', List.takeWhile_cons]
    · cases rest with
      | nil => simp
      | cons d ds =>
        have hd : d ≠ '*' := fun hd => hrest (by simp [hd])
        simp [hd]
    · rfl
  simp only [readFrom, size_le_of_toList h, charAt_of_toList h, hrun, if_false]
  simp only [show ('*' == '?') = false by decide, show ('*' == '*') = true by decide,
    Bool.false_eq_true, if_false, if_true, show ¬(1 > 2) by omega,
    show (1 == 2) = false by decide]

/-- **Reading a listing pattern.** An escaped text, a star, then another escaped text read into
the tokens of the first text's characters, a run of any characters, and the tokens of the
second's. -/
theorem parse_star_escaped (a b : List Char) :
    parse (String.ofList (a.flatMap escapeChar ++ '*' :: b.flatMap escapeChar)) =
      .ok ⟨a.map escapedToken ++ .anySequence :: b.map escapedToken, false⟩ := by
  have ha := length_le_escaped a
  have hb := length_le_escaped b
  simp only [parse, String.toList_ofList]
  generalize hcs : (a.flatMap escapeChar ++ '*' :: b.flatMap escapeChar).toArray = cs
  have hsize : cs.size = (a.flatMap escapeChar).length + 1 + (b.flatMap escapeChar).length := by
    simp [← hcs]
    omega
  -- the escaped first text, then the star, then the escaped second text
  have h₁ := readFrom_escaped a
    (show cs.toList = [] ++ a.flatMap escapeChar ++ ('*' :: b.flatMap escapeChar) by simp [← hcs])
    ((a.flatMap escapeChar).length - a.length + 1 +
      (b.flatMap escapeChar).length) [] false
  have h₂ := readFrom_star
    (show cs.toList = a.flatMap escapeChar ++ '*' :: b.flatMap escapeChar by simp [← hcs])
    (head?_escaped_ne_star b)
    ((a.flatMap escapeChar).length - a.length + (b.flatMap escapeChar).length)
    (a.map escapedToken).reverse false
  have h₃ := readFrom_escaped b
    (show cs.toList = (a.flatMap escapeChar ++ ['*']) ++ b.flatMap escapeChar ++ [] by simp [← hcs])
    ((a.flatMap escapeChar).length - a.length +
      ((b.flatMap escapeChar).length - b.length))
    (.anySequence :: (a.map escapedToken).reverse) false
  simp only [List.length_nil, Nat.zero_add, List.append_nil] at h₁
  simp only [List.length_append, List.length_singleton] at h₃
  rw [hsize, show (a.flatMap escapeChar).length + 1 + (b.flatMap escapeChar).length =
    (a.flatMap escapeChar).length - a.length + 1 + (b.flatMap escapeChar).length + a.length by
    omega, h₁, show (a.flatMap escapeChar).length - a.length + 1 +
      (b.flatMap escapeChar).length = (a.flatMap escapeChar).length - a.length +
      (b.flatMap escapeChar).length + 1 by omega, h₂,
    show (a.flatMap escapeChar).length - a.length + (b.flatMap escapeChar).length =
      (a.flatMap escapeChar).length - a.length + ((b.flatMap escapeChar).length - b.length) +
        b.length by omega, h₃, readFrom_of_size_le (by simp [hsize])]
  simp

/-! ## Matching the tokens of an escaped text -/

-- The equation lemmas of `admits` are out of reach once all of Mathlib is loaded (their
-- generation runs out of recursion depth on the derived equality of tokens), so the proofs
-- below only unfold it by reduction on a known token.
theorem admits_escapedToken (c d : Char) : admits d (escapedToken c) = (d == c) := by
  unfold escapedToken
  split
  · show [CharSpec.single c].any (CharSpec.admits d) = (d == c)
    simp only [CharSpec.admits, List.any_cons, List.any_nil, Bool.or_false]
  · rfl

/-- The token of a character is no star: it reads one character of the text. -/
theorem matchFrom_escapedToken_cons (c : Char) (ts : List GlobToken) (afterSep : Bool)
    (file : List Char) :
    matchFrom (escapedToken c :: ts) afterSep file =
      match file with
      | [] => .fileEnded
      | d :: ds => if d == c then matchFrom ts (d == '/') ds else .tryLonger := by
  cases file with
  | nil => unfold escapedToken; split <;> rfl
  | cons d ds =>
    have hread : matchFrom (escapedToken c :: ts) afterSep (d :: ds) =
        if admits d (escapedToken c) then matchFrom ts (d == '/') ds else .tryLonger := by
      unfold escapedToken
      split <;> rfl
    rw [hread, admits_escapedToken]

/-- **An escaped text matches itself.** Its tokens answer `matched` for the text itself,
`fileEnded` for a proper beginning of it, and `tryLonger` for anything else. -/
theorem matchFrom_escaped (l : List Char) (afterSep : Bool) (file : List Char) :
    matchFrom (l.map escapedToken) afterSep file =
      if file = l then .matched else if file <+: l then .fileEnded else .tryLonger := by
  induction l generalizing afterSep file with
  | nil =>
    cases file with
    | nil => rfl
    | cons d ds => simp [matchFrom]
  | cons c l ih =>
    rw [List.map_cons, matchFrom_escapedToken_cons]
    cases file with
    | nil => simp
    | cons d ds =>
      by_cases hd : d = c
      · subst hd
        simp [ih]
      · simp [hd]

/-- A star first lets the tokens after it try the text; only when they ask for more does it
swallow a character. -/
theorem matchFrom_anySequence (ts : List GlobToken) (afterSep : Bool) (file : List Char) :
    matchFrom (.anySequence :: ts) afterSep file =
      match matchFrom ts afterSep file with
      | .tryLonger => widen false (matchFrom ts) afterSep file
      | o => o := rfl

/-- Letting the star swallow one more character is matching the star against the rest. -/
theorem widen_cons (ts : List GlobToken) (afterSep : Bool) (d : Char) (ds : List Char) :
    widen false (matchFrom ts) afterSep (d :: ds) =
      matchFrom (.anySequence :: ts) (d == '/') ds := by
  simp only [widen, Bool.false_and, Bool.false_eq_true, if_false]
  rfl

/-- **A star before an escaped text** matches exactly the texts that end in it: the star tries
the longest run first, and no run longer than the one leaving the text itself can stop it. -/
theorem matchFrom_star_escaped (l : List Char) (afterSep : Bool) (file : List Char) :
    matchFrom (.anySequence :: l.map escapedToken) afterSep file = .matched ↔ l <:+ file := by
  induction file generalizing afterSep with
  | nil =>
    rw [matchFrom_anySequence, matchFrom_escaped]
    cases l <;> simp
  | cons d ds ih =>
    rw [matchFrom_anySequence, matchFrom_escaped, List.suffix_cons_iff]
    by_cases heq : d :: ds = l
    · simp [heq]
    · by_cases hpre : d :: ds <+: l
      · -- a proper beginning of the text is shorter than it, so the text cannot end it
        have hlt : (d :: ds).length < l.length :=
          Nat.lt_of_le_of_ne hpre.length_le fun h => heq (hpre.eq_of_length h)
        have hnot : ¬l <:+ ds := fun h => by
          have := h.length_le
          simp at hlt
          omega
        simp [heq, hpre, Ne.symm heq, hnot]
      · simp only [heq, hpre, if_false, widen_cons, ih, Ne.symm heq, false_or]

/-- **An escaped name is literal** exactly when it has none of the special characters, and
then it stands for itself. -/
theorem literalText?_escaped (l : List Char) (rec : Bool) :
    literalText? ⟨l.map escapedToken, rec⟩ =
      if l.any isSpecial then none else some (String.ofList l) := by
  induction l with
  | nil => rfl
  | cons c l ih =>
    simp only [literalText?, List.map_cons, List.foldr_cons] at ih ⊢
    rw [ih]
    by_cases hs : isSpecial c
    · simp [escapedToken, hs]
    · by_cases hl : l.any isSpecial
      · simp [escapedToken, hs, hl]
      · simp only [escapedToken, hs, hl, Bool.false_eq_true, if_false, List.any_cons,
          Bool.false_or, Option.some.injEq]
        rw [← String.toList_inj]
        simp

end GlobPattern

end ReleaseBuild
