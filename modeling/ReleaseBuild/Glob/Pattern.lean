/-!
# Shell-style file patterns

A pattern is read into tokens: a literal character, `?` for any one character, `*` for any
run of characters, `**` for any run of whole path components, and bracket classes `[...]` and
`[!...]` of single characters and ranges `a-z`. Reading refuses three things, each with the
position where it noticed the fault: three or more stars in a row, a `**` that is not a whole
path component, and a `[` that does not open a class closed by a later `]`.

Matching is case-sensitive, a `*` or `?` may match a separator, and a leading dot needs no
literal dot. `escape` wraps each of `? * [ ]` in brackets, so an escaped text matches exactly
itself.
-/

namespace ReleaseBuild

/-- A member of a bracket class. -/
inductive CharSpec where
  | single (c : Char)
  | range (lo hi : Char)
  deriving DecidableEq, Repr

/-- One token of a pattern. -/
inductive GlobToken where
  | char (c : Char)
  | anyChar
  | anySequence
  | anyRecursiveSequence
  | anyWithin (specs : List CharSpec)
  | anyExcept (specs : List CharSpec)
  deriving DecidableEq, Repr

/-- Why a pattern cannot be read. -/
inductive GlobFault where
  | invalidRange
  | tooManyStars
  | recursiveNotComponent
  deriving DecidableEq, Repr

/-- A refused pattern: what went wrong and the character position where it was seen. -/
structure PatternError where
  position : Nat
  fault : GlobFault
  deriving DecidableEq, Repr

namespace PatternError

/-- The wording of a fault. -/
def faultText : GlobFault → String
  | .invalidRange => "invalid range pattern"
  | .tooManyStars => "wildcards are either regular `*` or recursive `**`"
  | .recursiveNotComponent => "recursive wildcards must form a single path component"

/-- The error as printed. -/
def message (e : PatternError) : String :=
  "Pattern syntax error near position " ++ toString e.position ++ ": " ++ faultText e.fault

end PatternError

/-- A pattern read into tokens. `recursive` records whether it has a `**` component. -/
structure GlobPattern where
  tokens : List GlobToken
  recursive : Bool
  deriving DecidableEq, Repr

namespace GlobPattern

/-- Read the inside of a bracket class: `x-y` is a range, anything else a single character. -/
def charSpecs : List Char → List CharSpec
  | a :: '-' :: b :: rest => .range a b :: charSpecs rest
  | a :: rest => .single a :: charSpecs rest
  | [] => []

/-- The index of the first `]` at or after `start`. -/
def closingBracket (cs : Array Char) (start : Nat) : Option Nat :=
  ((cs.toList.drop start).findIdx? (· == ']')).map (· + start)

/-- The number of consecutive stars starting at `i`. -/
def starRun (cs : Array Char) (i : Nat) : Nat :=
  ((cs.toList.drop i).takeWhile (· == '*')).length

/-- The character at `i`, or a character that is no separator when `i` is out of range. -/
def charAt (cs : Array Char) (i : Nat) : Char := cs.getD i ' '

/-- The token that a bracket at `i` opens and the index after the class, or `none` when it
opens no class. A `[!` needs at least one character before its `]`, as does `[`; a `]` right
after the opening is a member of the class. -/
def bracketClass (cs : Array Char) (i : Nat) : Option (GlobToken × Nat) :=
  if i + 4 ≤ cs.size && charAt cs (i + 1) == '!' then
    (closingBracket cs (i + 3)).map fun j =>
      (.anyExcept (charSpecs ((cs.toList.drop (i + 2)).take (j - (i + 2)))), j + 1)
  else if i + 3 ≤ cs.size && charAt cs (i + 1) != '!' then
    (closingBracket cs (i + 2)).map fun j =>
      (.anyWithin (charSpecs ((cs.toList.drop (i + 1)).take (j - (i + 1)))), j + 1)
  else none

/-- Read tokens from index `i` on; `acc` holds the tokens read so far in reverse. The fuel is
the number of characters left, and every step consumes at least one. -/
def readFrom (cs : Array Char) : Nat → Nat → List GlobToken → Bool →
    Except PatternError GlobPattern
  | 0, _, acc, rec => .ok ⟨acc.reverse, rec⟩
  | fuel + 1, i, acc, rec =>
    if cs.size ≤ i then .ok ⟨acc.reverse, rec⟩
    else
      let c := charAt cs i
      if c == '?' then readFrom cs fuel (i + 1) (.anyChar :: acc) rec
      else if c == '*' then
        let count := starRun cs i
        let next := i + count
        if count > 2 then .error ⟨i + 2, .tooManyStars⟩
        else if count == 2 then
          if i == 0 || charAt cs (i - 1) == '/' then
            let after :=
              if next < cs.size && charAt cs next == '/' then some (next + 1)
              else if next == cs.size then some next
              else none
            match after with
            | none => .error ⟨next, .recursiveNotComponent⟩
            | some j =>
              let collapse := match acc with
                | .anyRecursiveSequence :: _ :: _ => true
                | _ => false
              if collapse then readFrom cs fuel j acc rec
              else readFrom cs fuel j (.anyRecursiveSequence :: acc) true
          else .error ⟨i - 1, .recursiveNotComponent⟩
        else readFrom cs fuel next (.anySequence :: acc) rec
      else if c == '[' then
        match bracketClass cs i with
        | some (tok, j) => readFrom cs fuel j (tok :: acc) rec
        | none => .error ⟨i, .invalidRange⟩
      else readFrom cs fuel (i + 1) (.char c :: acc) rec

/-- Read a pattern text. -/
def parse (text : String) : Except PatternError GlobPattern :=
  let cs := text.toList.toArray
  readFrom cs cs.size 0 [] false

/-- The text that a pattern matches literally: each of `? * [ ]` becomes a one-member class. -/
def escape (text : String) : String :=
  String.join (text.toList.map fun c =>
    if c == '?' || c == '*' || c == '[' || c == ']' then "[" ++ c.toString ++ "]"
    else c.toString)

/-- Whether a class member admits a character. -/
def CharSpec.admits (c : Char) : CharSpec → Bool
  | .single s => c == s
  | .range lo hi => lo ≤ c && c ≤ hi

/-- Whether a single-character token admits a character. -/
def admits (c : Char) : GlobToken → Bool
  | .char d => c == d
  | .anyChar => true
  | .anyWithin specs => specs.any (CharSpec.admits c)
  | .anyExcept specs => !specs.any (CharSpec.admits c)
  | _ => false

/-- The outcome of matching from some token on. `fileEnded` means the text ran out under a
single-character token, so no longer run of a wildcard before it can help. -/
inductive Outcome where
  | matched
  | tryLonger
  | fileEnded
  deriving DecidableEq, Repr

/-- Let a wildcard swallow one more character at a time and match the rest after it. A `**`
only stops right after a separator. Once the text is used up, matching goes on with the rest. -/
def widen (componentsOnly : Bool) (rest : Bool → List Char → Outcome) :
    Bool → List Char → Outcome
  | afterSep, [] => rest afterSep []
  | _, c :: cs =>
    let afterSep := c == '/'
    if componentsOnly && !afterSep then widen componentsOnly rest afterSep cs
    else
      match rest afterSep cs with
      | .tryLonger => widen componentsOnly rest afterSep cs
      | o => o

/-- Match a text against tokens, `afterSep` telling whether the previous character was a
separator. -/
def matchFrom : List GlobToken → Bool → List Char → Outcome
  | [], _, file => if file.isEmpty then .matched else .tryLonger
  | .anySequence :: ts, afterSep, file =>
    match matchFrom ts afterSep file with
    | .tryLonger => widen false (matchFrom ts) afterSep file
    | o => o
  | .anyRecursiveSequence :: ts, afterSep, file =>
    match matchFrom ts afterSep file with
    | .tryLonger => widen true (matchFrom ts) afterSep file
    | o => o
  | t :: ts, _, file =>
    match file with
    | [] => .fileEnded
    | c :: cs => if admits c t then matchFrom ts (c == '/') cs else .tryLonger

/-- Whether the whole text matches the pattern. -/
def accepts (p : GlobPattern) (text : String) : Bool :=
  matchFrom p.tokens true text.toList == .matched

/-- Whether the pattern is only literal characters, and which text it then stands for. -/
def literalText? (p : GlobPattern) : Option String :=
  p.tokens.foldr (fun t acc => match t, acc with
    | .char c, some s => some (c.toString ++ s)
    | _, _ => none) (some "")

end GlobPattern

end ReleaseBuild
