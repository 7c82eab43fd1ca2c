import ReleaseBuild.Host.FileTree
/-!
# Shell patterns

A pattern of the shell matches texts the way `case` and file name expansion do:

* `*` matches any text, `?` any one character;
* `[…]` matches one character of a set: characters, ranges `a-z` and classes such as
  `[:digit:]`; a leading `!` or `^` takes the complement, and a `]` first in the set is a
  member. A `[` without its closing `]` is itself;
* every other character matches itself, and so does a quoted character of any kind.

A pattern is therefore a list of characters, each marked with whether it was quoted.

File name expansion applies a pattern to the file tree one name at a time: the pattern is
cut at `/`, and each piece with an unquoted `*`, `?` or `[` is matched against the names in
the directories reached so far, in byte order. A name starting with `.` is matched only by a
piece that starts with a literal `.`. A pattern that matches nothing stands for itself.
-/

namespace ReleaseBuild

namespace Shell

/-- A character of a pattern, and whether it was quoted. -/
abbrev PatternChar := Char × Bool

/-- A member of a bracket set. -/
inductive SetItem where
  | single (c : Char)
  | range (lo hi : Char)
  | named (cls : String)
  deriving DecidableEq, Repr

/-- Whether a character belongs to a named class. -/
def inClass (cls : String) (c : Char) : Bool :=
  match cls with
  | "alpha" => c.isAlpha
  | "digit" => c.isDigit
  | "alnum" => c.isAlphanum
  | "upper" => c.isUpper
  | "lower" => c.isLower
  | "space" => c == ' ' || c == '\t' || c == '\n' || c == '\r' || c.toNat == 11 || c.toNat == 12
  | "blank" => c == ' ' || c == '\t'
  | "punct" => 33 ≤ c.toNat && c.toNat ≤ 126 && !c.isAlphanum
  | "xdigit" => c.isDigit || ('a' ≤ c && c ≤ 'f') || ('A' ≤ c && c ≤ 'F')
  | "print" => 32 ≤ c.toNat && c.toNat ≤ 126
  | "graph" => 33 ≤ c.toNat && c.toNat ≤ 126
  | "cntrl" => c.toNat < 32 || c.toNat == 127
  | _ => false

/-- Whether a character belongs to a member of a set. -/
def SetItem.holds (c : Char) : SetItem → Bool
  | .single d => c == d
  | .range lo hi => lo ≤ c && c ≤ hi
  | .named cls => inClass cls c

/-- The members of a bracket set, read after its `[` and optional negation, up to the
closing `]`: the members and the rest of the pattern, or `none` when there is no closing
bracket. `first` allows a leading `]` as a member. -/
def readSet : Nat → List PatternChar → Bool → List SetItem → Option (List SetItem × List PatternChar)
  | 0, _, _, _ => none
  | _ + 1, [], _, _ => none
  | fuel + 1, (c, q) :: rest, first, acc =>
    if c == ']' && !q && !first then some (acc, rest)
    else if c == '[' && !q && rest.head? == some (':', false) then
      let body := (rest.drop 1).takeWhile (fun p => p.1 != ':')
      let after := (rest.drop 1).drop body.length
      match after with
      | (':', _) :: (']', _) :: more =>
        readSet fuel more false (acc ++ [.named (String.ofList (body.map (·.1)))])
      | _ => readSet fuel rest false (acc ++ [.single c])
    else
      match rest with
      | ('-', false) :: (d, dq) :: more =>
        if d == ']' && !dq then readSet fuel rest false (acc ++ [.single c])
        else readSet fuel more false (acc ++ [.range c d])
      | _ => readSet fuel rest false (acc ++ [.single c])

/-- A bracket set read after its `[`: whether it is negated, its members and the rest of the
pattern. -/
def bracketSet (rest : List PatternChar) : Option (Bool × List SetItem × List PatternChar) :=
  let (negated, body) := match rest with
    | ('!', false) :: more => (true, more)
    | ('^', false) :: more => (true, more)
    | _ => (false, rest)
  (readSet (body.length + 1) body true []).map fun (items, after) => (negated, items, after)

/-- Whether a pattern matches a whole text. The fuel is the pattern's length: every step
consumes some of the pattern. -/
def matchesFuel : Nat → List PatternChar → List Char → Bool
  | 0, _, _ => false
  | _ + 1, [], s => s.isEmpty
  | fuel + 1, ('*', false) :: rest, s =>
    (List.range (s.length + 1)).any fun k => matchesFuel fuel rest (s.drop k)
  | fuel + 1, ('?', false) :: rest, s =>
    match s with
    | _ :: more => matchesFuel fuel rest more
    | [] => false
  | fuel + 1, ('[', false) :: rest, s =>
    match bracketSet rest with
    | some (negated, items, after) =>
      match s with
      | c :: more => (items.any (SetItem.holds c) != negated) && matchesFuel fuel after more
      | [] => false
    | none =>
      match s with
      | '[' :: more => matchesFuel fuel rest more
      | _ => false
  | fuel + 1, (c, _) :: rest, s =>
    match s with
    | d :: more => c == d && matchesFuel fuel rest more
    | [] => false

/-- Whether a pattern matches a whole text. -/
def patternMatches (p : List PatternChar) (s : String) : Bool :=
  matchesFuel (p.length + 1) p s.toList

/-- A pattern whose characters are all unquoted. -/
def patternOf (s : String) : List PatternChar := s.toList.map fun c => (c, false)

/-- Whether a pattern has an unquoted `*`, `?` or `[`, and so expands to file names. -/
def hasWildcard (p : List PatternChar) : Bool :=
  p.any fun (c, q) => !q && (c == '*' || c == '?' || c == '[')

/-- The text of a pattern with its quoting removed. -/
def patternText (p : List PatternChar) : String := String.ofList (p.map (·.1))

/-- Remove the shortest or longest prefix of a text that the pattern matches. -/
def removePrefix (p : List PatternChar) (s : String) (longest : Bool) : String :=
  let cs := s.toList
  let cuts := List.range (cs.length + 1)
  let cuts := if longest then cuts.reverse else cuts
  match cuts.find? fun k => patternMatches p (String.ofList (cs.take k)) with
  | some k => String.ofList (cs.drop k)
  | none => s

/-- Remove the shortest or longest suffix of a text that the pattern matches. -/
def removeSuffix (p : List PatternChar) (s : String) (longest : Bool) : String :=
  let cs := s.toList
  let cuts := List.range (cs.length + 1)
  let cuts := if longest then cuts else cuts.reverse
  match cuts.find? fun k => patternMatches p (String.ofList (cs.drop k)) with
  | some k => String.ofList (cs.take k)
  | none => s

/-- Cut a pattern at its `/` characters. -/
def splitPattern (p : List PatternChar) : List (List PatternChar) :=
  p.foldr (fun pc acc =>
    if pc.1 == '/' then [] :: acc
    else match acc with
      | first :: more => (pc :: first) :: more
      | [] => [[pc]]) [[]]

/-- Whether a name may be matched by a pattern piece: a leading `.` must be literal in the
piece. -/
def visibleTo (piece : List PatternChar) (name : String) : Bool :=
  !name.startsWith "." || piece.head?.map (·.1) == some '.'

/-- The paths that the pieces of a pattern reach from a directory: each path text is the
prefix followed by the names matched. -/
def expandPieces (t : FileTree) : List (List PatternChar) → Location → String → List String
  | [], _, prefixText => [prefixText]
  | piece :: more, dir, prefixText =>
    let sep := if more.isEmpty then "" else "/"
    if !hasWildcard piece then
      let name := patternText piece
      let loc := if name == "" || name == "." then dir else if name == ".." then dir.dropLast
        else dir ++ [name]
      if more.isEmpty then
        if name == "" || (t.get? loc).isSome then [prefixText ++ name] else []
      else
        match t.get? loc with
        | some .directory => expandPieces t more loc (prefixText ++ name ++ sep)
        | _ => if name == "" then expandPieces t more loc (prefixText ++ name ++ sep) else []
    else
      match t.get? dir with
      | some .directory =>
        let names := (t.childNames dir).filter fun n => visibleTo piece n && patternMatches piece n
        names.flatMap fun n =>
          if more.isEmpty then [prefixText ++ n]
          else
            match t.get? (dir ++ [n]) with
            | some .directory => expandPieces t more (dir ++ [n]) (prefixText ++ n ++ sep)
            | _ => []
      | _ => []

/-- The file names a pattern expands to, from a working directory, sorted; `none` when the
pattern has no wildcard or matches nothing. -/
def expandPaths (t : FileTree) (cwd : Location) (p : List PatternChar) : Option (List String) :=
  if !hasWildcard p then none
  else
    let pieces := splitPattern p
    let (start, pieces, prefixText) := match pieces with
      | [] :: more => ([], more, "/")
      | _ => (cwd, pieces, "")
    match expandPieces t pieces start prefixText with
    | [] => none
    | found => some (found.mergeSort fun a b => decide (a ≤ b))

end Shell

end ReleaseBuild
