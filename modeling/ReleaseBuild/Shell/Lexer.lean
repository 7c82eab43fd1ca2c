import ReleaseBuild.Shell.Syntax
/-!
# Reading shell source into tokens

The source of a script is cut into tokens: words, operators (`;`, `&`, `&&`, `||`, `|`, `(`,
`)`, `;;`), line ends, and redirection operators with an optional descriptor number in front
(`2>`, `>>`, `<&`, …). Blanks separate tokens, `#` at the start of a token begins a comment
that runs to the end of the line, and a backslash before a line end joins the lines.

A word runs until an unquoted blank or operator character. Inside it:

* a backslash makes the next character literal;
* single quotes make everything up to the next single quote literal;
* double quotes make their content literal except for `$`, backquotes, and a backslash before
  `$`, a backquote, `"`, a backslash or a line end;
* `$name`, `$1`, `$?`, `${…}`, `$(…)`, `$((…))` and backquotes are expansions.

A here-document operator `<<` (or `<<-`, which strips leading tabs) takes the next word as its
delimiter; the body is the lines after the end of the current line, up to a line equal to the
delimiter. A quoted delimiter keeps the body from being expanded.

A lexical mistake (an unterminated quote, say) becomes a `bad` token at its place, so that the
commands before it still run.
-/

namespace ReleaseBuild

namespace Shell

/-- A token of shell source. -/
inductive Token where
  | word (parts : Word) (raw : String)
  | op (text : String)
  | newline
  | redirect (fd : Option Nat) (op : String)
  | hereDoc (fd : Option Nat) (body : String) (expand : Bool)
  | bad (message : String)
  | eof
  deriving DecidableEq, Repr, Inhabited

/-- Characters that end a word outside quotes. -/
def isMeta (c : Char) : Bool :=
  c == ' ' || c == '\t' || c == '\n' || c == ';' || c == '&' || c == '|' || c == '(' ||
    c == ')' || c == '<' || c == '>'

/-- Characters that may start a name. -/
def isNameStart (c : Char) : Bool := c.isAlpha || c == '_'

/-- Characters of a name. -/
def isNameChar (c : Char) : Bool := c.isAlphanum || c == '_'

/-- Whether a text is a name. -/
def isName (s : String) : Bool :=
  match s.toList with
  | c :: rest => isNameStart c && rest.all isNameChar
  | [] => false

/-- The single-character special parameters. -/
def isSpecialParam (c : Char) : Bool :=
  c == '@' || c == '*' || c == '#' || c == '?' || c == '$' || c == '!' || c == '-'

/-- Add text outside quotes to a word. -/
def pushBare (w : Word) (t : String) : Word :=
  match w.getLast? with
  | some (.bare u) => w.dropLast ++ [.bare (u ++ t)]
  | _ => w ++ [.bare t]

/-- Add literal text to a word. -/
def pushLiteral (w : Word) (t : String) : Word :=
  match w.getLast? with
  | some (.literal u) => w.dropLast ++ [.literal (u ++ t)]
  | _ => w ++ [.literal t]

/-- The characters between two positions. -/
def sliceOf (s : Array Char) (i j : Nat) : String := String.ofList (s.extract i j).toList

/-- The first position at or after `i` holding `c`. -/
def findChar (s : Array Char) (c : Char) (i : Nat) : Option Nat :=
  (List.range' i (s.size - i)).find? fun j => s[j]? == some c

/-- The position of the closing double quote for a text that starts at `i`, skipping
backslash escapes. -/
def closingDouble (s : Array Char) : Nat → Nat → Option Nat
  | 0, _ => none
  | fuel + 1, i =>
    match s[i]? with
    | none => none
    | some '\\' => closingDouble s fuel (i + 2)
    | some '"' => some i
    | some _ => closingDouble s fuel (i + 1)

/-- The position of the bracket that closes a text starting at `i`, with `depth` brackets
open inside it; quotes and escapes are skipped. -/
def scanClose (s : Array Char) (openC closeC : Char) : Nat → Nat → Nat → Option Nat
  | 0, _, _ => none
  | fuel + 1, i, depth =>
    match s[i]? with
    | none => none
    | some c =>
      if c == '\\' then scanClose s openC closeC fuel (i + 2) depth
      else if c == '\'' then
        match findChar s '\'' (i + 1) with
        | some j => scanClose s openC closeC fuel (j + 1) depth
        | none => none
      else if c == '"' then
        match closingDouble s s.size (i + 1) with
        | some j => scanClose s openC closeC fuel (j + 1) depth
        | none => none
      else if c == openC then scanClose s openC closeC fuel (i + 1) (depth + 1)
      else if c == closeC then
        if depth == 0 then some i else scanClose s openC closeC fuel (i + 1) (depth - 1)
      else scanClose s openC closeC fuel (i + 1) depth

/-- The parameter expansion written between `${` and `}`. -/
def braceParam (inside : List Char) (quoted : Bool) : Part :=
  let word (cs : List Char) : String := String.ofList cs
  match inside with
  | ['#'] => .param "#" .plain quoted
  | '#' :: rest =>
    if isName (String.ofList rest) || (!rest.isEmpty && rest.all Char.isDigit) ||
        (rest.length == 1 && rest.all isSpecialParam) then
      .param (String.ofList rest) .length quoted
    else .param "" .invalid quoted
  | c :: _ =>
    let name :=
      if isNameStart c then inside.takeWhile isNameChar
      else if c.isDigit then inside.takeWhile Char.isDigit
      else if isSpecialParam c then [c]
      else []
    let rest := inside.drop name.length
    let op : ParamOp := match rest with
      | [] => .plain
      | ':' :: '-' :: w => .useDefault (word w) true
      | ':' :: '=' :: w => .assignDefault (word w) true
      | ':' :: '+' :: w => .useAlternative (word w) true
      | ':' :: '?' :: w => .errorIfUnset (word w) true
      | '-' :: w => .useDefault (word w) false
      | '=' :: w => .assignDefault (word w) false
      | '+' :: w => .useAlternative (word w) false
      | '?' :: w => .errorIfUnset (word w) false
      | '%' :: '%' :: p => .removeSuffix (word p) true
      | '%' :: p => .removeSuffix (word p) false
      | '#' :: '#' :: p => .removePrefix (word p) true
      | '#' :: p => .removePrefix (word p) false
      | _ => .invalid
    if name.isEmpty then .param "" .invalid quoted else .param (String.ofList name) op quoted
  | [] => .param "" .invalid quoted

/-- An expansion starting with the `$` at `i`: the part and the position after it, or `none`
for a `$` that starts none and stands for itself. -/
def readDollar (s : Array Char) (i : Nat) (quoted : Bool) : Except String (Option Part × Nat) :=
  match s[i + 1]? with
  | some '{' =>
    match scanClose s '{' '}' s.size (i + 2) 0 with
    | some j => .ok (some (braceParam (s.extract (i + 2) j).toList quoted), j + 1)
    | none => .error "Missing '\x7d'"
  | some '(' =>
    if s[i + 2]? == some '(' then
      match scanClose s '(' ')' s.size (i + 3) 0 with
      | some j =>
        if s[j + 1]? == some ')' then .ok (some (.arith (sliceOf s (i + 3) j) quoted), j + 2)
        else
          match scanClose s '(' ')' s.size (i + 2) 0 with
          | some k => .ok (some (.command (sliceOf s (i + 2) k) quoted), k + 1)
          | none => .error "Missing '))'"
      | none => .error "Missing '))'"
    else
      match scanClose s '(' ')' s.size (i + 2) 0 with
      | some j => .ok (some (.command (sliceOf s (i + 2) j) quoted), j + 1)
      | none => .error "end of file unexpected (expecting \")\")"
  | some c =>
    if isNameStart c then
      let name := ((s.extract (i + 1) s.size).toList.takeWhile isNameChar)
      .ok (some (.param (String.ofList name) .plain quoted), i + 1 + name.length)
    else if c.isDigit || isSpecialParam c then .ok (some (.param c.toString .plain quoted), i + 2)
    else .ok (none, i + 1)
  | none => .ok (none, i + 1)

/-- The text of a backquoted command substitution whose opening backquote is at `i`: a
backslash before `$`, a backquote or a backslash stands for that character. -/
def readBackquote (s : Array Char) : Nat → Nat → List Char → Except String (String × Nat)
  | 0, _, _ => .error "EOF in backquote substitution"
  | fuel + 1, i, acc =>
    match s[i]? with
    | none => .error "EOF in backquote substitution"
    | some '`' => .ok (String.ofList acc, i + 1)
    | some '\\' =>
      match s[i + 1]? with
      | some d =>
        if d == '$' || d == '`' || d == '\\' then readBackquote s fuel (i + 2) (acc ++ [d])
        else readBackquote s fuel (i + 1) (acc ++ ['\\'])
      | none => readBackquote s fuel (i + 1) (acc ++ ['\\'])
    | some c => readBackquote s fuel (i + 1) (acc ++ [c])

/-- The rest of a double-quoted text from `i`, added to a word. -/
def readDouble (s : Array Char) : Nat → Nat → Word → Except String (Word × Nat)
  | 0, _, _ => .error "Unterminated quoted string"
  | fuel + 1, i, w =>
    match s[i]? with
    | none => .error "Unterminated quoted string"
    | some '"' => .ok (w, i + 1)
    | some '\\' =>
      match s[i + 1]? with
      | some '\n' => readDouble s fuel (i + 2) w
      | some d =>
        if d == '$' || d == '`' || d == '"' || d == '\\' then
          readDouble s fuel (i + 2) (pushLiteral w d.toString)
        else readDouble s fuel (i + 1) (pushLiteral w "\\")
      | none => readDouble s fuel (i + 1) (pushLiteral w "\\")
    | some '$' => do
      let (part, j) ← readDollar s i true
      match part with
      | some p => readDouble s fuel j (w ++ [p])
      | none => readDouble s fuel j (pushLiteral w "$")
    | some '`' => do
      let (source, j) ← readBackquote s s.size (i + 1) []
      readDouble s fuel j (w ++ [.command source true])
    | some c => readDouble s fuel (i + 1) (pushLiteral w c.toString)

/-- The parts of a word from `i` up to an unquoted blank or operator character. -/
def readWord (s : Array Char) : Nat → Nat → Word → Except String (Word × Nat)
  | 0, i, w => .ok (w, i)
  | fuel + 1, i, w =>
    match s[i]? with
    | none => .ok (w, i)
    | some c =>
      if isMeta c then .ok (w, i)
      else if c == '\\' then
        match s[i + 1]? with
        | some '\n' => readWord s fuel (i + 2) w
        | some d => readWord s fuel (i + 2) (pushLiteral w d.toString)
        | none => readWord s fuel (i + 1) (pushBare w "\\")
      else if c == '\'' then
        match findChar s '\'' (i + 1) with
        | some j => readWord s fuel (j + 1) (pushLiteral w (sliceOf s (i + 1) j))
        | none => .error "Unterminated quoted string"
      else if c == '"' then do
        let (w, j) ← readDouble s s.size (i + 1) (pushLiteral w "")
        readWord s fuel j w
      else if c == '$' then do
        let (part, j) ← readDollar s i false
        match part with
        | some p => readWord s fuel j (w ++ [p])
        | none => readWord s fuel j (pushBare w "$")
      else if c == '`' then do
        let (source, j) ← readBackquote s s.size (i + 1) []
        readWord s fuel j (w ++ [.command source false])
      else readWord s fuel (i + 1) (pushBare w c.toString)

/-- The text a here-document delimiter stands for. -/
def delimiterText (w : Word) : String :=
  String.join (w.map fun p =>
    match p with
    | .bare t => t
    | .literal t => t
    | .param name _ _ => "$" ++ name
    | .command src _ => "$(" ++ src ++ ")"
    | .arith src _ => "$((" ++ src ++ "))")

/-- A here-document waiting for its body: the token's index, the delimiter, and whether
leading tabs are stripped. -/
structure PendingDoc where
  index : Nat
  delimiter : String
  stripTabs : Bool
  deriving DecidableEq, Repr

/-- The lines of a here-document body from `i`, up to the delimiter line or the end; gives the
body, the position after the delimiter line and the number of lines read. -/
def hereDocBody (s : Array Char) (d : PendingDoc) : Nat → Nat → String → Nat → String × Nat × Nat
  | 0, i, body, n => (body, i, n)
  | fuel + 1, i, body, n =>
    if s.size ≤ i then (body, i, n)
    else
      let stop := (findChar s '\n' i).getD s.size
      let line := (s.extract i stop).toList
      let line := if d.stripTabs then line.dropWhile (· == '\t') else line
      if String.ofList line == d.delimiter then (body, stop + 1, n + 1)
      else hereDocBody s d fuel (stop + 1) (body ++ String.ofList line ++ "\n") (n + 1)

/-- The number of line ends between two positions. -/
def linesIn (s : Array Char) (i j : Nat) : Nat := ((s.extract i j).toList.filter (· == '\n')).length

/-- The state of cutting a text into tokens. -/
structure Cutting where
  tokens : Array (Token × Nat) := #[]
  line : Nat := 1
  pending : List PendingDoc := []
  deriving Repr, Inhabited

namespace Cutting

/-- Add a token at the current line. -/
def push (c : Cutting) (t : Token) : Cutting := { c with tokens := c.tokens.push (t, c.line) }

end Cutting

/-- The operators, longest first. -/
def operators : List String := ["&&", "||", ";;", ";", "&", "|", "(", ")"]

/-- The redirection operators, longest first. -/
def redirectOperators : List String := ["<<-", "<<", "<&", "<>", "<", ">>", ">&", ">|", ">"]

/-- Whether the text continues with `t` at `i`. -/
def startsAt (s : Array Char) (i : Nat) (t : String) : Bool :=
  (s.extract i (i + t.length)).toList == t.toList

/-- Cut the text from `i` into tokens. -/
def cut (s : Array Char) : Nat → Nat → Cutting → Cutting
  | 0, _, c => c.push .eof
  | fuel + 1, i, c =>
    match s[i]? with
    | none => c.push .eof
    | some ch =>
      if ch == ' ' || ch == '\t' then cut s fuel (i + 1) c
      else if ch == '\\' && s[i + 1]? == some '\n' then cut s fuel (i + 2) { c with line := c.line + 1 }
      else if ch == '#' then cut s fuel ((findChar s '\n' i).getD s.size) c
      else if ch == '\n' then
        let c := c.push .newline
        let c := { c with line := c.line + 1 }
        let (c, j) := c.pending.foldl (fun (acc : Cutting × Nat) d =>
          let (c, j) := acc
          let (body, k, n) := hereDocBody s d s.size j "" 0
          let c := match c.tokens[d.index]? with
            | some (.hereDoc fd _ expand, l) =>
              { c with tokens := c.tokens.setIfInBounds d.index (.hereDoc fd body expand, l) }
            | _ => c
          ({ c with line := c.line + n }, k)) (c, i + 1)
        cut s fuel j { c with pending := [] }
      else
        match operators.find? (startsAt s i) with
        | some o => cut s fuel (i + o.length) (c.push (.op o))
        | none =>
          let digits := (s.extract i s.size).toList.takeWhile Char.isDigit
          let opAt := i + digits.length
          let fd := if digits.isEmpty then none else some (digits.foldl (fun n d => 10 * n + (d.toNat - 48)) 0)
          match redirectOperators.find? (startsAt s opAt) with
          | some r =>
            if r == "<<" || r == "<<-" then
              let j := opAt + r.length
              let j := (List.range' j (s.size - j)).find? (fun k => s[k]? != some ' ' && s[k]? != some '\t') |>.getD s.size
              match readWord s s.size j [] with
              | .ok (w, k) =>
                if w.isEmpty then (c.push (.bad "newline unexpected")).push .eof
                else
                  let expand := w.all fun p => match p with
                    | .literal _ => false
                    | _ => true
                  let doc : PendingDoc := ⟨c.tokens.size, delimiterText w, r == "<<-"⟩
                  let c := c.push (.hereDoc fd "" expand)
                  cut s fuel k { c with pending := c.pending ++ [doc] }
              | .error m => (c.push (.bad m)).push .eof
            else cut s fuel (opAt + r.length) (c.push (.redirect fd r))
          | none =>
            match readWord s s.size i [] with
            | .ok (w, j) =>
              let c := c.push (.word w (sliceOf s i j))
              cut s fuel j { c with line := c.line + linesIn s i j }
            | .error m => (c.push (.bad m)).push .eof

/-- The tokens of a text, each with the line it starts on; the last is `eof`. -/
def tokenize (text : String) : Array (Token × Nat) :=
  let s := text.toList.toArray
  (cut s (s.size + 1) 0 {}).tokens

end Shell

end ReleaseBuild
