import ReleaseBuild.Shell.Pattern
/-!
# Regular expressions

The text tools (`sed`, `grep`) search lines with POSIX regular expressions, in two dialects:

* basic: `.`, `[…]`, `*`, `^` at the start, `$` at the end, groups `\(…\)`, counts `\{m,n\}`,
  back references `\1`…`\9`, and the common extensions `\+`, `\?` and `\|`; a `*` at the start
  of an expression or a group is an ordinary character;
* extended: the same with `(…)`, `{m,n}`, `+`, `?` and `|` written without backslashes.

A match is the leftmost one, and of those the longest, as POSIX requires. Matching tries every
way the expression can match from a position and keeps the furthest end; the groups are
those of the first way that reaches it.
-/

namespace ReleaseBuild

namespace Shell

/-- A regular expression. -/
inductive Regex where
  | char (c : Char)
  | any
  | set (negated : Bool) (items : List SetItem)
  | lineStart
  | lineEnd
  | group (index : Nat) (branches : List (List Regex))
  | alternatives (branches : List (List Regex))
  | repeated (body : Regex) (least : Nat) (most : Option Nat)
  | backref (index : Nat)
  deriving Repr, Inhabited

/-- The spans of the groups matched so far, by group number from 1. -/
abbrev Groups := List (Nat × Nat × Nat)

/-- The span of a group. -/
def groupSpan (g : Groups) (n : Nat) : Option (Nat × Nat) :=
  (g.find? (·.1 == n)).map (·.2)

/-- Record the span of a group. -/
def setGroup (g : Groups) (n a b : Nat) : Groups := (n, a, b) :: g.filter (·.1 != n)

/-- A regular expression as written: the text, and whether it is extended. -/
structure RegexSource where
  text : List Char
  extended : Bool
  deriving Repr

/-! ## Reading -/

/-- The state of reading an expression: the branches of the innermost open alternation. -/
structure RegexReader where
  branches : List (List Regex) := []
  current : List Regex := []
  groups : Nat := 0
  deriving Repr

/-- A count `m`, `m,`, `m,n` read up to its closing brace; gives the bounds and the rest. -/
def readCount (cs : List Char) (extended : Bool) : Option (Nat × Option Nat × List Char) :=
  let digits (xs : List Char) := xs.takeWhile Char.isDigit
  let number (xs : List Char) := xs.foldl (fun n d => 10 * n + (d.toNat - 48)) 0
  let lo := digits cs
  let rest := cs.drop lo.length
  let (hi, rest) := match rest with
    | ',' :: more =>
      let h := digits more
      (if h.isEmpty then none else some (number h), some (more.drop h.length))
    | _ => (some (number lo), some rest)
  match rest with
  | some rest =>
    let close := if extended then rest.take 1 == ['}'] else rest.take 2 == ['\\', '}']
    if lo.isEmpty || !close then none
    else some (number lo, (if (cs.drop lo.length).head? == some ',' then hi else some (number lo)),
      rest.drop (if extended then 1 else 2))
  | none => none

/-- Apply a repetition to the last atom of a branch; at the start it is an ordinary
character. -/
def repeatLast (current : List Regex) (least : Nat) (most : Option Nat) (literal : Char) :
    List Regex :=
  match current.getLast? with
  | some Regex.lineStart => current ++ [.char literal]
  | some r => current.dropLast ++ [.repeated r least most]
  | none => [.char literal]

/-- Read an expression. Gives the top-level branches and the number of groups, or an error
text. The fuel is the length of the text. -/
def readRegex (extended : Bool) : Nat → List Char → List (List (List Regex) × List Regex × Nat) →
    RegexReader → Except String (List (List Regex) × Nat)
  | 0, _, _, _ => .error "Invalid regular expression"
  | _ + 1, [], stack, r =>
    if stack.isEmpty then .ok (r.branches ++ [r.current], r.groups)
    else .error "Unmatched ( or \\("
  | fuel + 1, c :: rest, stack, r =>
    let openGroup (more : List Char) :=
      readRegex extended fuel more ((r.branches, r.current, r.groups + 1) :: stack)
        { branches := [], current := [], groups := r.groups + 1 }
    let closeGroup (more : List Char) :=
      match stack with
      | (outerBranches, outerCurrent, index) :: outer =>
        let g := Regex.group index (r.branches ++ [r.current])
        readRegex extended fuel more outer
          { branches := outerBranches, current := outerCurrent ++ [g], groups := r.groups }
      | [] => if extended then readRegex extended fuel more stack { r with current := r.current ++ [.char ')'] }
        else .error "Unmatched ) or \\)"
    let alternative (more : List Char) :=
      readRegex extended fuel more stack { r with branches := r.branches ++ [r.current], current := [] }
    let counted (more : List Char) (literal : Char) :=
      match readCount more extended with
      | some (lo, hi, after) =>
        readRegex extended fuel after stack { r with current := repeatLast r.current lo hi literal }
      | none => .error "Invalid content of \\\x7b\\\x7d"
    if c == '\\' then
      match rest with
      | d :: more =>
        if !extended && d == '(' then openGroup more
        else if !extended && d == ')' then closeGroup more
        else if !extended && d == '|' then alternative more
        else if !extended && d == '{' then counted more '{'
        else if !extended && d == '+' then
          readRegex extended fuel more stack { r with current := repeatLast r.current 1 none '+' }
        else if !extended && d == '?' then
          readRegex extended fuel more stack { r with current := repeatLast r.current 0 (some 1) '?' }
        else if d.isDigit && d != '0' then
          readRegex extended fuel more stack { r with current := r.current ++ [.backref (d.toNat - 48)] }
        else
          let lit := if d == 'n' then '\n' else if d == 't' then '\t' else d
          readRegex extended fuel more stack { r with current := r.current ++ [.char lit] }
      | [] => .error "Trailing backslash"
    else if c == '.' then readRegex extended fuel rest stack { r with current := r.current ++ [.any] }
    else if c == '[' then
      match bracketSet (rest.map fun x => (x, false)) with
      | some (negated, items, after) =>
        readRegex extended fuel (after.map (·.1)) stack { r with current := r.current ++ [.set negated items] }
      | none => .error "Unmatched [, [^, [:, [., or [="
    else if c == '*' then
      if r.current.isEmpty && !extended then
        readRegex extended fuel rest stack { r with current := [.char '*'] }
      else readRegex extended fuel rest stack { r with current := repeatLast r.current 0 none '*' }
    else if c == '^' && (extended || r.current.isEmpty) then
      readRegex extended fuel rest stack { r with current := r.current ++ [.lineStart] }
    else if c == '$' && (extended || rest.isEmpty || rest.take 2 == ['\\', ')'] || rest.take 2 == ['\\', '|']) then
      readRegex extended fuel rest stack { r with current := r.current ++ [.lineEnd] }
    else if extended && c == '(' then openGroup rest
    else if extended && c == ')' then closeGroup rest
    else if extended && c == '|' then alternative rest
    else if extended && c == '{' then counted rest '{'
    else if extended && c == '+' then
      readRegex extended fuel rest stack { r with current := repeatLast r.current 1 none '+' }
    else if extended && c == '?' then
      readRegex extended fuel rest stack { r with current := repeatLast r.current 0 (some 1) '?' }
    else readRegex extended fuel rest stack { r with current := r.current ++ [.char c] }

/-- A compiled expression: its branches and whether letters match either case. -/
structure CompiledRegex where
  branches : List (List Regex)
  ignoreCase : Bool := false
  deriving Repr

/-- Compile an expression. -/
def compileRegex (text : String) (extended ignoreCase : Bool) : Except String CompiledRegex := do
  let cs := text.toList
  let (branches, _) ← readRegex extended (cs.length + 2) cs [] {}
  pure ⟨branches, ignoreCase⟩

/-! ## Matching -/

/-- Whether two characters are equal, in either case when asked. -/
def sameChar (ignoreCase : Bool) (a b : Char) : Bool :=
  if ignoreCase then a.toLower == b.toLower else a == b

mutual

/-- Every way one atom matches at a position: the end and the groups. -/
def matchAtom (s : Array Char) (ic : Bool) : Nat → Regex → Nat → Groups → List (Nat × Groups)
  | 0, _, _, _ => []
  | fuel + 1, r, pos, g =>
    match r with
    | .char c =>
      match s[pos]? with
      | some d => if sameChar ic c d then [(pos + 1, g)] else []
      | none => []
    | .any => if pos < s.size then [(pos + 1, g)] else []
    | .set negated items =>
      match s[pos]? with
      | some d =>
        let hit := items.any fun i => i.holds d || (ic && (i.holds d.toLower || i.holds d.toUpper))
        if hit != negated then [(pos + 1, g)] else []
      | none => []
    | .lineStart => if pos == 0 then [(pos, g)] else []
    | .lineEnd => if pos == s.size then [(pos, g)] else []
    | .group index branches =>
      (branches.flatMap fun b => matchSeq s ic fuel b pos g).map fun (e, g') =>
        (e, setGroup g' index pos e)
    | .alternatives branches => branches.flatMap fun b => matchSeq s ic fuel b pos g
    | .backref index =>
      match groupSpan g index with
      | some (a, b) =>
        let text := (s.extract a b).toList
        if (s.extract pos (pos + text.length)).toList == text then [(pos + text.length, g)] else []
      | none => []
    | .repeated body least most => matchRepeat s ic fuel body least most 0 [(pos, g)]

/-- Every way a sequence of atoms matches at a position. -/
def matchSeq (s : Array Char) (ic : Bool) : Nat → List Regex → Nat → Groups → List (Nat × Groups)
  | 0, _, _, _ => []
  | _ + 1, [], pos, g => [(pos, g)]
  | fuel + 1, r :: rest, pos, g =>
    (matchAtom s ic fuel r pos g).flatMap fun (p, g') => matchSeq s ic fuel rest p g'

/-- Every way a repetition matches, given the ways after `count` repetitions; more
repetitions first. A repetition that matches nothing ends the count. -/
def matchRepeat (s : Array Char) (ic : Bool) : Nat → Regex → Nat → Option Nat → Nat →
    List (Nat × Groups) → List (Nat × Groups)
  | 0, _, _, _, _, _ => []
  | fuel + 1, body, least, most, count, level =>
    let here := if least ≤ count then level else []
    if most == some count || level.isEmpty then here
    else
      let next := level.flatMap fun (p, g) =>
        (matchAtom s ic fuel body p g).filter fun (e, _) => e != p
      matchRepeat s ic fuel body least most (count + 1) next ++ here

end

/-- The longest match of a compiled expression starting at a position: its end and
groups. -/
def CompiledRegex.matchAt (re : CompiledRegex) (s : Array Char) (pos : Nat) : Option (Nat × Groups) :=
  let fuel := 4 * (s.size + 2) * (re.branches.length + 8) + 64
  let ways := re.branches.flatMap fun b => matchSeq s re.ignoreCase fuel b pos []
  ways.foldl (fun best (e, g) =>
    match best with
    | some (b, _) => if b < e then some (e, g) else best
    | none => some (e, g)) none

/-- The leftmost-longest match at or after a position: its start, end and groups. -/
def CompiledRegex.search (re : CompiledRegex) (s : Array Char) (origin : Nat) :
    Option (Nat × Nat × Groups) :=
  (List.range' origin (s.size + 1 - origin)).findSome? fun start =>
    (re.matchAt s start).map fun (e, g) => (start, e, g)

/-- Whether the expression matches somewhere in a line. -/
def CompiledRegex.test (re : CompiledRegex) (line : String) : Bool :=
  (re.search line.toList.toArray 0).isSome

end Shell

end ReleaseBuild
