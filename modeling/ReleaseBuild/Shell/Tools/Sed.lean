import ReleaseBuild.Shell.Tool
import ReleaseBuild.Shell.Regex
/-!
# `sed` and `grep`

`sed` runs a script over each input line. A command has up to two addresses (a line number,
`$` for the last line, or `/regex/`), an optional `!`, and a letter:

* `s/regex/replacement/flags`: replace the first match (every match with `g`, the `N`th with a
  number; `p` prints the result, `i` ignores case). In the replacement, `&` is the match and
  `\1`…`\9` its groups. Any character may stand in for `/`;
* `d` deletes the line, `p` prints it, `q` prints it and stops, `Q` stops, `=` prints the line
  number, `y/abc/xyz/` maps characters, and `a`, `i`, `c` append, insert or change text.

Unless `-n` is given, every line is printed after the script ran on it.

`grep` prints the lines that match a pattern (regular expression, or fixed text with `-F`),
with the usual options `-v`, `-i`, `-c`, `-l`, `-q`, `-n`, `-x`, `-s` and `-E`. Its status is
0 when a line was selected, 1 when none was, and 2 on an error.
-/

namespace ReleaseBuild

namespace Shell

open ToolM

/-- An address of a `sed` command. -/
inductive SedAddress where
  | line (n : Nat)
  | last
  | matching (re : CompiledRegex)
  deriving Repr

/-- What a `sed` command does. -/
inductive SedAction where
  | substitute (re : CompiledRegex) (replacement : List Char) (global : Bool) (nth : Nat) (print : Bool)
  | delete
  | print
  | quit (printFirst : Bool) (code : Nat)
  | lineNumber
  | translate (src dst : List Char)
  | append (text : String)
  | insert (text : String)
  | change (text : String)
  deriving Repr

/-- A `sed` command: addresses, negation and action. -/
structure SedCommand where
  first : Option SedAddress
  second : Option SedAddress
  negated : Bool
  action : SedAction
  deriving Repr

/-- Read a text up to an unescaped delimiter: the text (with `\delim` turned into the
delimiter and other escapes kept) and the rest. -/
def readDelimited (delim : Char) : Nat → List Char → List Char → Option (List Char × List Char)
  | 0, _, _ => none
  | _ + 1, [], _ => none
  | fuel + 1, '\\' :: c :: rest, acc =>
    if c == delim then readDelimited delim fuel rest (acc ++ [c])
    else if c == 'n' then readDelimited delim fuel rest (acc ++ ['\\', 'n'])
    else readDelimited delim fuel rest (acc ++ ['\\', c])
  | fuel + 1, c :: rest, acc =>
    if c == delim then some (acc, rest) else readDelimited delim fuel rest (acc ++ [c])

/-- A script error, worded as `sed` words it. -/
def sedError (position : Nat) (message : String) : String :=
  "-e expression #1, char " ++ toString position ++ ": " ++ message

/-- Read an address; gives it and the rest. -/
def readAddress (extended : Bool) (cs : List Char) : Except String (Option SedAddress × List Char) :=
  match cs with
  | '$' :: rest => .ok (some .last, rest)
  | '/' :: rest =>
    match readDelimited '/' (rest.length + 1) rest [] with
    | some (re, after) =>
      match compileRegex (String.ofList re) extended false with
      | .ok r => .ok (some (.matching r), after)
      | .error e => .error e
    | none => .error "unterminated address regex"
  | c :: _ =>
    if c.isDigit then
      let ds := cs.takeWhile Char.isDigit
      .ok (some (.line (String.ofList ds).toNat!), cs.drop ds.length)
    else .ok (none, cs)
  | [] => .ok (none, cs)

/-- Drop blanks. -/
def dropBlanks (cs : List Char) : List Char := cs.dropWhile fun c => c == ' ' || c == '\t'

/-- The text argument of `a`, `i` and `c`: after an optional backslash and blanks, up to the
end of the line. -/
def readTextArgument (cs : List Char) : String × List Char :=
  let cs := dropBlanks cs
  let cs := match cs with
    | '\\' :: '\n' :: more => more
    | '\\' :: more => more
    | _ => cs
  let text := cs.takeWhile (· != '\n')
  (String.ofList text, cs.drop text.length)

/-- Read the commands of a script. The fuel is the script's length. -/
def readSedScript (extended : Bool) (total : Nat) : Nat → List Char → List SedCommand →
    Except String (List SedCommand)
  | 0, _, acc => .ok acc
  | fuel + 1, cs, acc =>
    let cs := cs.dropWhile fun c => c == ' ' || c == '\t' || c == '\n' || c == ';'
    if cs.isEmpty then .ok acc
    else do
      let (first, rest) ← readAddress extended cs
      let (second, rest) ← match first, rest with
        | some _, ',' :: more => do
          let (a, after) ← readAddress extended more
          match a with
          | some _ => pure (a, after)
          | none => throw (sedError (total - more.length + 1) "unexpected `,'")
        | _, _ => pure (none, rest)
      let rest := dropBlanks rest
      let (negated, rest) := match rest with
        | '!' :: more => (true, dropBlanks more)
        | _ => (false, rest)
      let here := total - rest.length + 1
      match rest with
      | [] => throw (sedError (total) "missing command")
      | c :: more =>
        let finish (a : SedAction) (after : List Char) :=
          readSedScript extended total fuel after (acc ++ [⟨first, second, negated, a⟩])
        match c with
        | 's' =>
          match more with
          | delim :: body =>
            match readDelimited delim (body.length + 1) body [] with
            | some (re, after) =>
              match readDelimited delim (after.length + 1) after [] with
              | some (replacement, flagsText) =>
                let flags := flagsText.takeWhile fun f => f != ';' && f != '\n' && f != '}'
                let after := flagsText.drop flags.length
                let flags := flags.filter fun f => f != ' '
                let digits := flags.filter Char.isDigit
                let nth := if digits.isEmpty then 1 else (String.ofList digits).toNat!
                if flags.any fun f => !(f.isDigit || f == 'g' || f == 'p' || f == 'i' || f == 'I') then
                  throw (sedError (total - after.length) "unknown option to `s'")
                else
                  match compileRegex (String.ofList re) extended (flags.contains 'i' || flags.contains 'I') with
                  | .ok r => finish (.substitute r replacement (flags.contains 'g') nth (flags.contains 'p')) after
                  | .error e => throw (sedError (total - after.length) e)
              | none => throw (sedError total "unterminated `s' command")
            | none => throw (sedError total "unterminated `s' command")
          | [] => throw (sedError total "unterminated `s' command")
        | 'y' =>
          match more with
          | delim :: body =>
            match readDelimited delim (body.length + 1) body [] with
            | some (src, after) =>
              match readDelimited delim (after.length + 1) after [] with
              | some (dst, rest') =>
                if src.length != dst.length then
                  throw (sedError (total - rest'.length) "strings for `y' command are different lengths")
                else finish (.translate src dst) rest'
              | none => throw (sedError total "unterminated `y' command")
            | none => throw (sedError total "unterminated `y' command")
          | [] => throw (sedError total "unterminated `y' command")
        | 'd' => finish .delete more
        | 'p' => finish .print more
        | '=' => finish .lineNumber more
        | 'q' | 'Q' =>
          let m := dropBlanks more
          let ds := m.takeWhile Char.isDigit
          finish (.quit (c == 'q') (String.ofList ds).toNat!) (m.drop ds.length)
        | 'a' | 'i' | 'c' =>
          let (text, after) := readTextArgument more
          finish (if c == 'a' then .append text else if c == 'i' then .insert text else .change text) after
        | _ => throw (sedError here ("unknown command: `" ++ c.toString ++ "'"))

/-- The replacement of a match: `&` is the match, `\N` a group, `\n` a line end. -/
def replacementText (s : Array Char) (start stop : Nat) (g : Groups) : List Char → List Char
  | [] => []
  | '\\' :: c :: rest =>
    if c.isDigit then
      let n := c.toNat - 48
      let part := match (if n == 0 then some (start, stop) else groupSpan g n) with
        | some (a, b) => (s.extract a b).toList
        | none => []
      part ++ replacementText s start stop g rest
    else if c == 'n' then '\n' :: replacementText s start stop g rest
    else if c == 't' then '\t' :: replacementText s start stop g rest
    else c :: replacementText s start stop g rest
  | '&' :: rest => (s.extract start stop).toList ++ replacementText s start stop g rest
  | c :: rest => c :: replacementText s start stop g rest

/-- Replace matches in a line: every one with `global`, else the `nth`. Gives the new line and
whether anything was replaced. -/
def substituteLine (re : CompiledRegex) (replacement : List Char) (global : Bool) (nth : Nat)
    (line : String) : String × Bool :=
  let s := line.toList.toArray
  let rec go : Nat → Nat → Nat → List Char → Bool → List Char × Bool
    | 0, pos, _, acc, done => (acc ++ (s.extract pos s.size).toList, done)
    | fuel + 1, pos, count, acc, done =>
      match re.search s pos with
      | none => (acc ++ (s.extract pos s.size).toList, done)
      | some (a, b, g) =>
        let count := count + 1
        let replaceHere := if global then count ≥ nth else count == nth
        let piece := if replaceHere then replacementText s a b g replacement else (s.extract a b).toList
        let acc := acc ++ (s.extract pos a).toList ++ piece
        let done := done || replaceHere
        if !global && count ≥ nth then (acc ++ (s.extract b s.size).toList, done)
        else if b == a then
          match s[b]? with
          | some c => go fuel (b + 1) count (acc ++ [c]) done
          | none => (acc, done)
        else go fuel b count acc done
  let (cs, done) := go (s.size + 2) 0 0 [] false
  (String.ofList cs, done)

/-- Whether an address selects a line. -/
def SedAddress.selects (a : SedAddress) (number : Nat) (isLast : Bool) (line : String) : Bool :=
  match a with
  | .line n => number == n
  | .last => isLast
  | .matching re => re.test line

/-- The state of running a `sed` script: output so far, open ranges by command index, and
whether the run stopped. -/
structure SedRun where
  output : String := ""
  openRanges : List Nat := []
  stopped : Option Nat := none
  deriving Repr

/-- Whether a command applies to a line, updating open ranges. -/
def commandApplies (c : SedCommand) (index number : Nat) (isLast : Bool) (line : String)
    (r : SedRun) : Bool × SedRun :=
  let (hit, r) := match c.first, c.second with
    | none, _ => (true, r)
    | some a, none => (a.selects number isLast line, r)
    | some a, some b =>
      if r.openRanges.contains index then
        let ends : Bool := match b with
          | .line n => decide (n ≤ number)
          | _ => b.selects number isLast line
        (true, if ends then { r with openRanges := r.openRanges.filter (· != index) } else r)
      else if a.selects number isLast line then
        let endsNow : Bool := match b with
          | .line n => decide (n ≤ number)
          | _ => false
        (true, if endsNow then r else { r with openRanges := index :: r.openRanges })
      else (false, r)
  (hit != c.negated, r)

/-- Run the script on one line: the output, and whether the line was deleted. -/
def sedLine (commands : List SedCommand) (quiet : Bool) (number : Nat) (isLast : Bool)
    (line : String) (r : SedRun) : SedRun :=
  let step := commands.zipIdx.foldl (fun (acc : String × SedRun × Bool × String × Bool) (c, index) =>
    let (space, r, deleted, appended, halted) := acc
    if deleted || halted then acc
    else
      let (applies, r) := commandApplies c index number isLast space r
      if !applies then (space, r, deleted, appended, halted)
      else
        match c.action with
        | .substitute re replacement global nth print =>
          let (space', done) := substituteLine re replacement global nth space
          let r := if print && done then { r with output := r.output ++ space' ++ "\n" } else r
          (space', r, false, appended, false)
        | .delete => (space, r, true, appended, false)
        | .print => (space, { r with output := r.output ++ space ++ "\n" }, false, appended, false)
        | .lineNumber => (space, { r with output := r.output ++ toString number ++ "\n" }, false, appended, false)
        | .translate src dst =>
          let mapped := space.toList.map fun ch =>
            match src.findIdx? (· == ch) with
            | some i => dst[i]?.getD ch
            | none => ch
          (String.ofList mapped, r, false, appended, false)
        | .append text => (space, r, false, appended ++ text ++ "\n", false)
        | .insert text => (space, { r with output := r.output ++ text ++ "\n" }, false, appended, false)
        | .change text => (space, { r with output := r.output ++ text ++ "\n" }, true, appended, false)
        | .quit printFirst code =>
          let r := if printFirst && !quiet then { r with output := r.output ++ space ++ "\n" } else r
          (space, { r with stopped := some code }, true, appended, true))
    (line, r, false, "", false)
  let (space, r, deleted, appended, _) := step
  let r := if deleted || quiet then r else { r with output := r.output ++ space ++ "\n" }
  { r with output := r.output ++ appended }

/-- Run a script over a text. -/
def runSed (commands : List SedCommand) (quiet : Bool) (text : String) : SedRun :=
  let lines := linesOf text
  let count := lines.length
  let r := lines.zipIdx.foldl (fun (r : SedRun) (line, i) =>
    if r.stopped.isSome then r else sedLine commands quiet (i + 1) (i + 1 == count) line r) {}
  if !text.isEmpty && !text.endsWith "\n" && r.output.endsWith "\n" then
    { r with output := Text.takeChars r.output (r.output.length - 1) }
  else r

/-- `sed [-nEi] [-e SCRIPT]… [SCRIPT] FILE…`. -/
def sedTool : Tool := do
  let args ← ToolM.args
  let rec options : Nat → List String → Bool × Bool × Bool × List String × List String →
      Bool × Bool × Bool × List String × List String
    | 0, _, acc => acc
    | _ + 1, [], acc => acc
    | n + 1, a :: rest, (quiet, ext, inPlace, scripts, ops) =>
      if a == "-e" then options n (rest.drop 1) (quiet, ext, inPlace, scripts ++ rest.take 1, ops)
      else if a.startsWith "--expression=" then
        options n rest (quiet, ext, inPlace, scripts ++ [Text.dropChars a 13], ops)
      else if a == "--" then (quiet, ext, inPlace, scripts, ops ++ rest)
      else if a.startsWith "-" && a.length > 1 then
        let fs := a.toList.drop 1
        options n rest (quiet || fs.contains 'n', ext || fs.contains 'E' || fs.contains 'r',
          inPlace || fs.contains 'i', scripts, ops)
      else options n rest (quiet, ext, inPlace, scripts, ops ++ [a])
  let (quiet, extended, inPlace, scripts, operands) := options (args.length + 1) args (false, false, false, [], [])
  let (script, files) := if scripts.isEmpty then (operands.head?.getD "", operands.drop 1)
    else ("\n".intercalate scripts, operands)
  if scripts.isEmpty && operands.isEmpty then
    err "Usage: sed [OPTION]... \x7bscript-only-if-no-other-script\x7d [input-file]...\n"
    setStatus 1
  else
    let cs := script.toList
    match readSedScript extended cs.length (cs.length + 1) cs [] with
    | .error e => complain e
    | .ok commands =>
      if inPlace then
        for f in files do
          let t ← ToolM.files
          match t.lookup (← ToolM.cwd) f with
          | .ok (loc, .file content _) =>
            setFiles (t.setContent loc (runSed commands quiet content).output)
          | .ok (_, .directory) => complain ("couldn't edit " ++ f ++ ": not a regular file")
          | .error e => complain ("can't read " ++ f ++ ": " ++ e.reason)
      else
        let names := if files.isEmpty then ["-"] else files
        let mut text := ""
        for name in names do
          match ← readOperand name with
          | .ok t => text := text ++ t
          | .error e => complain ("can't read " ++ name ++ ": " ++ e.reason)
        let r := runSed commands quiet text
        out r.output
        match r.stopped with
        | some code => if code != 0 then setStatus code
        | none => pure ()

/-- Whether a fixed text occurs in a line. -/
def fixedOccurs (needle line : String) (ignoreCase wholeLine : Bool) : Bool :=
  let n := if ignoreCase then needle.toLower else needle
  let l := if ignoreCase then line.toLower else line
  if wholeLine then n == l else Text.contains l n

/-- `grep [-cilnqsvxEF] [-e PATTERN] PATTERN FILE…`. -/
def grepTool : Tool := do
  let args ← ToolM.args
  let rec options : Nat → List String → List Char × List String × List String →
      List Char × List String × List String
    | 0, _, acc => acc
    | _ + 1, [], acc => acc
    | n + 1, a :: rest, (flags, patterns, ops) =>
      if a == "-e" then options n (rest.drop 1) (flags, patterns ++ rest.take 1, ops)
      else if a == "--" then (flags, patterns, ops ++ rest)
      else if a.startsWith "-" && a.length > 1 then options n rest (flags ++ a.toList.drop 1, patterns, ops)
      else options n rest (flags, patterns, ops ++ [a])
  let (flags, patterns, operands) := options (args.length + 1) args ([], [], [])
  let (patterns, files) := if patterns.isEmpty then (operands.take 1, operands.drop 1) else (patterns, operands)
  if patterns.isEmpty then
    err "Usage: grep [OPTION]... PATTERNS [FILE]...\nTry 'grep --help' for more information.\n"
    setStatus 2
  else
    let ignoreCase := flags.contains 'i'
    let wholeLine := flags.contains 'x'
    let fixed := flags.contains 'F'
    let extended := flags.contains 'E'
    let pieces := patterns.flatMap (·.splitOn "\n")
    let compiled := pieces.mapM fun p =>
      compileRegex (if wholeLine then "^\\(" ++ p ++ "\\)$" else p) false ignoreCase |>.map id
    let compiled := if extended then
        pieces.mapM fun p => compileRegex (if wholeLine then "^(" ++ p ++ ")$" else p) true ignoreCase
      else compiled
    match (if fixed then .ok [] else compiled) with
    | .error e => complainWith 2 e
    | .ok regexes =>
      let selects (line : String) : Bool :=
        let hit := if fixed then pieces.any fun p => fixedOccurs p line ignoreCase wholeLine
          else regexes.any fun re => re.test line
        hit != flags.contains 'v'
      let names := if files.isEmpty then ["-"] else files
      let labelled := names.length > 1 && !flags.contains 'h'
      let mut found := false
      let mut failed := false
      for name in names do
        match ← readOperand name with
        | .error e =>
          failed := true
          if !flags.contains 's' then err ("grep: " ++ name ++ ": " ++ e.reason ++ "\n")
        | .ok text =>
          let shown := if name == "-" then "(standard input)" else name
          let hits := (linesOf text).zipIdx.filter fun (l, _) => selects l
          if !hits.isEmpty then found := true
          if flags.contains 'q' then pure ()
          else if flags.contains 'l' then
            if !hits.isEmpty then out (shown ++ "\n")
          else if flags.contains 'c' then
            out ((if labelled then shown ++ ":" else "") ++ toString hits.length ++ "\n")
          else
            for (l, i) in hits do
              out ((if labelled then shown ++ ":" else "") ++
                (if flags.contains 'n' then toString (i + 1) ++ ":" else "") ++ l ++ "\n")
      setStatus (if found && (flags.contains 'q' || !failed) then 0 else if failed then 2 else if found then 0 else 1)

end Shell

end ReleaseBuild
