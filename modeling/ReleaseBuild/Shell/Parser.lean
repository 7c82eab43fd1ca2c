import ReleaseBuild.Shell.Lexer
/-!
# Parsing shell commands

The tokens of a script are read into commands one complete command at a time: a list of
and-or lists separated by `;` or `&`, ended by a line end or the end of the text. The shell
runs each complete command before it reads the next, so a syntax error stops the script only
when it is reached; what came before has already run.

The grammar is the POSIX one:

* an and-or list is pipelines joined by `&&` and `||` (a line end may follow either);
* a pipeline is commands joined by `|`, optionally preceded by `!`;
* a command is a simple command, a compound command with optional redirections, or a
  function definition `name() command`;
* a compound list (the body of `if`, `while`, `for`, `case`, braces and parentheses) is
  and-or lists separated by `;`, `&` or line ends, up to a word that closes it.

Reserved words (`if`, `then`, `fi`, `{`, …) count only where a command may start. A syntax
error names the token it found and, where one word was required, the word it expected, the
way the shell reports it: `"fi" unexpected (expecting "then")`, `end of file unexpected`, or
`word unexpected` for a plain word.
-/

namespace ReleaseBuild

namespace Shell

/-- A syntax error: the line where it was found and its text. -/
structure SyntaxError where
  line : Nat
  message : String
  deriving DecidableEq, Repr

/-- The tokens being read and the position of the next one. -/
structure Cursor where
  tokens : Array (Token × Nat)
  pos : Nat := 0
  deriving Repr

/-- Reading tokens, failing with a syntax error. -/
abbrev Parse := StateT Cursor (Except SyntaxError)

/-- The words that are reserved where a command may start. -/
def reservedWords : List String :=
  ["if", "then", "else", "elif", "fi", "do", "done", "case", "esac", "while", "until", "for",
    "\x7b", "\x7d", "!", "in"]

/-- The reserved words that close a compound list. -/
def closingWords : List String := ["then", "else", "elif", "fi", "do", "done", "esac", "\x7d"]

namespace Token

/-- The reserved word a token spells: an unquoted word that is one of them. -/
def keyword? : Token → Option String
  | .word [.bare w] _ => if reservedWords.contains w then some w else none
  | _ => none

/-- Whether the token spells a reserved word. -/
def isKeyword (t : Token) (w : String) : Bool := t.keyword? == some w

/-- How an error message names the token. -/
def name (t : Token) : String :=
  match t with
  | .word .. =>
    match t.keyword? with
    | some k => "\"" ++ k ++ "\""
    | none => "word"
  | .op o => "\"" ++ o ++ "\""
  | .newline => "newline"
  | .redirect .. | .hereDoc .. => "redirection"
  | .bad m => m
  | .eof => "end of file"

/-- Whether the token ends a compound list. -/
def closes (t : Token) : Bool :=
  match t with
  | .eof => true
  | .op ")" | .op ";;" => true
  | _ => match t.keyword? with
    | some k => closingWords.contains k
    | none => false

end Token

namespace Parse

/-- The next token and its line; past the end, the end of the text. -/
def peek : Parse (Token × Nat) := do
  let c ← get
  match c.tokens[c.pos]? with
  | some t => pure t
  | none => pure (.eof, (c.tokens.back?.map (·.2)).getD 1)

/-- Move past the next token. -/
def advance : Parse Unit := modify fun c => { c with pos := c.pos + 1 }

/-- The number of tokens left, a bound on every loop over them. -/
def remaining : Parse Nat := do
  let c ← get
  pure (c.tokens.size - c.pos + 1)

/-- Fail at the next token, naming it and, if given, the word expected instead. -/
def unexpected {α : Type} (expecting : Option String) : Parse α := do
  let (t, line) ← peek
  let text := match t with
    | .bad m => m
    | _ =>
      t.name ++ " unexpected" ++
        (match expecting with
          | some e => " (expecting \"" ++ e ++ "\")"
          | none => "")
  throw ⟨line, text⟩

/-- Move past line ends. -/
def skipNewlines : Parse Unit := do
  for _ in List.range (← remaining) do
    let (t, _) ← peek
    if t == .newline then advance else break

/-- Move past a required reserved word. -/
def expectWord (w : String) : Parse Unit := do
  let (t, _) ← peek
  if t.isKeyword w then advance else unexpected (some w)

/-- Move past a required operator. -/
def expectOp (o : String) : Parse Unit := do
  let (t, _) ← peek
  if t == .op o then advance else unexpected (some o)

end Parse

/-- The redirection an operator makes of a descriptor (or of its default one) to a word. -/
def redirectOf (fd : Option Nat) (op : String) (target : Word) : Redirect :=
  match op with
  | ">>" => .output (fd.getD 1) target true
  | "<" => .input (fd.getD 0) target
  | "<>" => .readWrite (fd.getD 0) target
  | ">&" => .duplicate (fd.getD 1) target
  | "<&" => .duplicate (fd.getD 0) target
  | _ => .output (fd.getD 1) target false

/-- A word that assigns a variable: unquoted `name=` at its start. Gives the name and the
word of the value. -/
def assignment? (w : Word) : Option (String × Word) :=
  match w with
  | .bare t :: rest =>
    let cs := t.toList
    let name := cs.takeWhile (· != '=')
    if name.length < cs.length && isName (String.ofList name) then
      let value := (cs.drop (name.length + 1))
      some (String.ofList name, (if value.isEmpty then [] else [.bare (String.ofList value)]) ++ rest)
    else none
  | _ => none

/-- The word a token holds, if it is a word. -/
def Token.word? : Token → Option Word
  | .word parts _ => some parts
  | _ => none

open Parse in
/-- Read a simple command: assignments, words and redirections, in any order after the
assignments. -/
def simpleCommand : Parse Command := do
  let (_, line) ← peek
  let mut assigns : Array (String × Word) := #[]
  let mut words : Array Word := #[]
  let mut redirects : Array Redirect := #[]
  for _ in List.range (← remaining) do
    let (t, _) ← peek
    match t with
    | .word parts _ =>
      advance
      match assignment? parts with
      | some a => if words.isEmpty then assigns := assigns.push a else words := words.push parts
      | none => words := words.push parts
    | .redirect fd op =>
      advance
      let (target, _) ← peek
      match target.word? with
      | some w => advance; redirects := redirects.push (redirectOf fd op w)
      | none => unexpected none
    | .hereDoc fd body expand =>
      advance
      redirects := redirects.push (.hereDoc (fd.getD 0) body expand)
    | _ => break
  if assigns.isEmpty && words.isEmpty && redirects.isEmpty then unexpected none
  pure (.simple assigns.toList words.toList redirects.toList line)

open Parse in
/-- Read the redirections after a compound command. -/
def redirectList : Parse (List Redirect) := do
  let mut redirects : Array Redirect := #[]
  for _ in List.range (← remaining) do
    let (t, _) ← peek
    match t with
    | .redirect fd op =>
      advance
      let (target, _) ← peek
      match target.word? with
      | some w => advance; redirects := redirects.push (redirectOf fd op w)
      | none => unexpected none
    | .hereDoc fd body expand =>
      advance
      redirects := redirects.push (.hereDoc (fd.getD 0) body expand)
    | _ => break
  pure redirects.toList

/-- One command, or a sequence of several. -/
def sequenceOf (items : List Command) : Command :=
  match items with
  | [c] => c
  | _ => .sequence items

open Parse in
mutual

/-- Read an and-or list. -/
def andOr : Nat → Parse Command
  | 0 => unexpected none
  | fuel + 1 => do
    let first ← pipeline fuel
    let mut rest : Array (Bool × Command) := #[]
    for _ in List.range (← remaining) do
      let (t, _) ← peek
      if t == .op "&&" || t == .op "||" then
        advance
        skipNewlines
        let p ← pipeline fuel
        rest := rest.push (t == .op "&&", p)
      else break
    pure (if rest.isEmpty then first else .andOr first rest.toList)

/-- Read a pipeline. -/
def pipeline : Nat → Parse Command
  | 0 => unexpected none
  | fuel + 1 => do
    let (t, _) ← peek
    let negated := t.isKeyword "!"
    if negated then advance
    let first ← command fuel
    let mut stages : Array Command := #[first]
    for _ in List.range (← remaining) do
      let (t, _) ← peek
      if t == .op "|" then
        advance
        skipNewlines
        stages := stages.push (← command fuel)
      else break
    pure (if !negated && stages.size == 1 then first else .pipeline negated stages.toList)

/-- Read a command. -/
def command : Nat → Parse Command
  | 0 => unexpected none
  | fuel + 1 => do
    let (t, _) ← peek
    match t.keyword? with
    | some "if" => advance; ifClause fuel
    | some "while" => advance; loopClause fuel false
    | some "until" => advance; loopClause fuel true
    | some "for" => advance; forClause fuel
    | some "case" => advance; caseClause fuel
    | some "\x7b" =>
      advance
      let body ← compoundList fuel false
      expectWord "\x7d"
      pure (.group body (← redirectList))
    | some "!" | none =>
      if t == .op "(" then
        advance
        let body ← compoundList fuel false
        expectOp ")"
        pure (.subshell body (← redirectList))
      else
        let c ← get
        let following : Option Token × Option Token :=
          (c.tokens[c.pos + 1]?.map (·.1), c.tokens[c.pos + 2]?.map (·.1))
        match t, following with
        | .word [.bare name] _, (some (.op "("), some (.op ")")) =>
          if isName name then
            advance; advance; advance
            skipNewlines
            pure (.function name (← command fuel))
          else simpleCommand
        | _, _ => simpleCommand
    | some _ => unexpected none

/-- Read a compound list up to a closing word; `allowEmpty` lets it hold nothing (the body
of a `case` arm). -/
def compoundList : Nat → Bool → Parse Command
  | 0, _ => unexpected none
  | fuel + 1, allowEmpty => do
    skipNewlines
    let (t, _) ← peek
    if t.closes then
      if allowEmpty then return .sequence [] else unexpected none
    let mut items : Array Command := #[]
    for _ in List.range (← remaining) do
      let c ← andOr fuel
      let (t, _) ← peek
      let separated := t == .op "&" || t == .op ";" || t == .newline
      if separated then advance
      items := items.push (if t == .op "&" then .background c else c)
      if !separated then break
      skipNewlines
      let (t, _) ← peek
      if t.closes then break
    pure (sequenceOf items.toList)

/-- Read the rest of an `if` command, after `if`. -/
def ifClause : Nat → Parse Command
  | 0 => unexpected none
  | fuel + 1 => do
    let mut branches : Array (Command × Command) := #[]
    let mut otherwise : Option Command := none
    for _ in List.range (← remaining) do
      let condition ← compoundList fuel false
      expectWord "then"
      let body ← compoundList fuel false
      branches := branches.push (condition, body)
      let (t, _) ← peek
      if t.isKeyword "elif" then advance
      else
        if t.isKeyword "else" then
          advance
          otherwise := some (← compoundList fuel false)
        break
    expectWord "fi"
    pure (.ifThen branches.toList otherwise (← redirectList))

/-- Read the rest of a `while` or `until` loop, after its first word. -/
def loopClause : Nat → Bool → Parse Command
  | 0, _ => unexpected none
  | fuel + 1, untilLoop => do
    let condition ← compoundList fuel false
    expectWord "do"
    let body ← compoundList fuel false
    expectWord "done"
    pure (.loop condition body untilLoop (← redirectList))

/-- Read the rest of a `for` loop, after `for`. -/
def forClause : Nat → Parse Command
  | 0 => unexpected none
  | fuel + 1 => do
    let (t, line) ← peek
    let name ← match t with
      | .word [.bare n] _ => if isName n then pure n else throw ⟨line, "Bad for loop variable"⟩
      | _ => throw ⟨line, "Bad for loop variable"⟩
    advance
    skipNewlines
    let (t, _) ← peek
    let mut items : Option (List Word) := none
    if t.isKeyword "in" then
      advance
      let mut ws : Array Word := #[]
      for _ in List.range (← remaining) do
        let (t, _) ← peek
        match t with
        | .word parts _ => advance; ws := ws.push parts
        | .op ";" | .newline => advance; break
        | _ => unexpected none
      items := some ws.toList
      skipNewlines
    else if t == .op ";" then
      advance
      skipNewlines
    expectWord "do"
    let body ← compoundList fuel false
    expectWord "done"
    pure (.forEach name items body (← redirectList))

/-- Read the rest of a `case` command, after `case`. -/
def caseClause : Nat → Parse Command
  | 0 => unexpected none
  | fuel + 1 => do
    let (t, _) ← peek
    let subject ← match t.word? with
      | some w => advance; pure w
      | none => unexpected none
    skipNewlines
    expectWord "in"
    skipNewlines
    let mut arms : Array (List Word × Command) := #[]
    for _ in List.range (← remaining) do
      let (t, _) ← peek
      if t.isKeyword "esac" then break
      if t == .op "(" then advance
      let mut patterns : Array Word := #[]
      for _ in List.range (← remaining) do
        let (t, _) ← peek
        match t.word? with
        | some w =>
          advance
          patterns := patterns.push w
          let (t, _) ← peek
          if t == .op "|" then advance else break
        | none => unexpected none
      expectOp ")"
      let body ← compoundList fuel true
      arms := arms.push (patterns.toList, body)
      let (t, _) ← peek
      if t == .op ";;" then
        advance
        skipNewlines
      else break
    expectWord "esac"
    pure (.caseOf subject arms.toList (← redirectList))

end

open Parse in
/-- Read one complete command: and-or lists separated by `;` or `&` up to a line end. Gives
`none` at the end of the text. -/
def completeCommand (fuel : Nat) : Parse (Option Command) := do
  skipNewlines
  let (t, _) ← peek
  if t == .eof then return none
  let mut items : Array Command := #[]
  for _ in List.range (← remaining) do
    let c ← andOr fuel
    let (t, _) ← peek
    if t == .op "&" || t == .op ";" then
      advance
      items := items.push (if t == .op "&" then .background c else c)
      let (u, _) ← peek
      if u == .newline then advance; break
      if u == .eof then break
    else if t == .newline then
      advance
      items := items.push c
      break
    else if t == .eof then
      items := items.push c
      break
    else unexpected none
  pure (some (sequenceOf items.toList))

/-- Read the complete command at a position of a token list: the command and the position
after it, `none` at the end of the text, or the syntax error. -/
def readCommandAt (tokens : Array (Token × Nat)) (pos : Nat) :
    Except SyntaxError (Option (Command × Nat)) :=
  match (completeCommand (tokens.size + 2)).run ⟨tokens, pos⟩ with
  | .ok (some c, cursor) => .ok (some (c, cursor.pos))
  | .ok (none, _) => .ok none
  | .error e => .error e

end Shell

end ReleaseBuild
