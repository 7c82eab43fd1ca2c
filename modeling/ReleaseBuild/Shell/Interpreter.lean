import ReleaseBuild.Shell.Builtins
import ReleaseBuild.Shell.Arith
import ReleaseBuild.Shell.Pattern
import ReleaseBuild.Shell.Tools.Files
import ReleaseBuild.Shell.Tools.Sed
import ReleaseBuild.Shell.Tools.Find
import ReleaseBuild.Shell.Tools.Expr
/-!
# Running shell code and programs

This module runs what a release starts: a program of the file tree or of the system. A file
starting with `#!` runs its interpreter with the file's path as an argument; the shell reads
and runs scripts one complete command at a time.

## Expansion

A word becomes fields in four steps. Its parameters, command substitutions and arithmetic are
replaced by their values; the values that stood outside double quotes are split at the
characters of `IFS`; a field with an unquoted `*`, `?` or `[` is replaced by the file names
it matches, if any; and the quotes go. `"$@"` gives one field per positional parameter, and
none when there is none. Where one text is wanted (assignments, `case`, redirection targets,
here-documents) the fields are not split and no file names are matched.

## Commands

A simple command's words are expanded; an empty command only assigns and redirects. Otherwise
the first field names a special builtin, a function, a builtin or a program found on `PATH`,
in that order. Redirections apply to the command alone, except after `exec`. A pipeline runs
its stages one after the other, each stage reading what the one before wrote; subshells,
command substitutions and pipeline stages get a copy of the shell's state, so that what they
change stays inside.

## Programs

Starting a program looks like `execve`: a missing file is `No such file or directory`, a
directory or a file without the executable flag `Permission denied`, and a file without `#!`
that the kernel cannot run `Exec format error` (which the shell answers by running the file
as a script). The programs of the system live in `/usr/bin` and `/bin`.

Everything recurses on an explicit fuel argument; a run that exhausts it stops as if killed.
-/

namespace ReleaseBuild

namespace Shell

open ShellM

/-- A program of the system. -/
inductive Program where
  | shell (d : Dialect)
  | env
  | kill
  | tool (t : Tool)

/-- The programs of the system, by name. -/
def systemPrograms : List (String × Program) :=
  [("sh", .shell .dash), ("dash", .shell .dash), ("bash", .shell .bash), ("env", .env),
    ("kill", .kill), ("echo", .tool echoTool), ("printf", .tool printfTool),
    ("test", .tool (testTool false)), ("[", .tool (testTool true)), ("true", .tool trueTool),
    ("false", .tool falseTool), ("cat", .tool catTool), ("head", .tool headTool),
    ("tail", .tool tailTool), ("wc", .tool wcTool), ("sort", .tool sortTool),
    ("uniq", .tool uniqTool), ("tr", .tool trTool), ("cut", .tool cutTool),
    ("seq", .tool seqTool), ("basename", .tool basenameTool), ("dirname", .tool dirnameTool),
    ("ls", .tool lsTool), ("mkdir", .tool mkdirTool), ("touch", .tool touchTool),
    ("rm", .tool rmTool), ("rmdir", .tool rmdirTool), ("cp", .tool cpTool), ("mv", .tool mvTool),
    ("ln", .tool lnTool), ("chmod", .tool chmodTool), ("tee", .tool teeTool), ("pwd", .tool pwdTool),
    ("printenv", .tool printenvTool), ("sleep", .tool sleepTool), ("uname", .tool unameTool),
    ("sed", .tool sedTool), ("grep", .tool grepTool), ("find", .tool findTool),
    ("expr", .tool exprTool)]

/-- The directories holding the programs of the system. -/
def systemDirectories : List Location := [["usr", "bin"], ["bin"]]

/-- The location a path names from a working directory, by names alone. -/
def locationFrom (cwd : Location) (path : String) : Location :=
  if path.startsWith "/" then FileTree.locationOf path
  else FileTree.locationOf ("/" ++ "/".intercalate cwd ++ "/" ++ path)

/-- The program of the system at a path, unless the file tree has an entry there. -/
def systemProgram? (t : FileTree) (cwd : Location) (path : String) : Option Program :=
  let loc := locationFrom cwd path
  if (t.get? loc).isSome then none
  else if systemDirectories.contains loc.dropLast then
    match loc.getLast? with
    | some name => (systemPrograms.find? (·.1 == name)).map (·.2)
    | none => none
  else none

/-- The interpreter line of a script: the interpreter and its optional argument. -/
def shebang (content : String) : Option (String × Option String) :=
  if !content.startsWith "#!" then none
  else
    let line := (content.toList.drop 2).takeWhile (· != '\n')
    let line := line.dropWhile fun c => c == ' ' || c == '\t'
    let interp := line.takeWhile fun c => c != ' ' && c != '\t'
    let rest := (line.drop interp.length).dropWhile fun c => c == ' ' || c == '\t'
    let rest := (rest.reverse.dropWhile fun c => c == ' ' || c == '\t' || c == '\r').reverse
    if interp.isEmpty then none
    else some (String.ofList interp, if rest.isEmpty then none else some (String.ofList rest))

/-- The candidates for a command name on a search path: the name itself when it has a `/`. -/
def candidates (searchPath name : String) : List String :=
  if name.contains '/' then [name]
  else (searchPath.splitOn ":").map fun dir => (if dir.isEmpty then "." else dir) ++ "/" ++ name

/-- Where the shell finds a command: the first candidate that is a program of the system or a
file. -/
def locateCommand (t : FileTree) (cwd : Location) (searchPath name : String) : Option String :=
  (candidates searchPath name).find? fun c =>
    (systemProgram? t cwd c).isSome || t.isFile? cwd c

/-- Where `execvp` finds a program: the first candidate that is a program of the system or an
executable file. A candidate that exists without the executable flag makes the failure
`Permission denied`; otherwise it is `No such file or directory`. -/
def locateExecutable (t : FileTree) (cwd : Location) (searchPath name : String) :
    Except IoError String :=
  if name.contains '/' then .ok name
  else
    let found := (candidates searchPath name).find? fun c =>
      (systemProgram? t cwd c).isSome ||
        (match t.stat cwd c with
          | .ok (.file _ x) => x
          | _ => false)
    match found with
    | some c => .ok c
    | none =>
      if (candidates searchPath name).any (t.isFile? cwd ·) then .error .permissionDenied
      else .error .notFound

/-- A piece of an expanded word. -/
inductive Piece where
  /-- Text of the word itself, quoted or not. -/
  | text (s : String) (quoted : Bool)
  /-- The value of an unquoted expansion: it is split into fields. -/
  | value (s : String)
  /-- The value of a quoted expansion. -/
  | quotedValue (s : String)
  /-- The end of a field, between the positional parameters of `"$@"`. -/
  | fieldBreak
  deriving DecidableEq, Repr

/-- Fields being built: the finished ones, the current one, and whether it has begun (a
quoted empty text begins a field). -/
structure FieldBuilder where
  done : Array (List PatternChar) := #[]
  current : Array PatternChar := #[]
  started : Bool := false
  deriving Repr

namespace FieldBuilder

/-- Add characters to the current field. -/
def add (f : FieldBuilder) (cs : List PatternChar) (start : Bool) : FieldBuilder :=
  { f with current := f.current ++ cs.toArray, started := f.started || start }

/-- End the current field, if it has begun. -/
def close (f : FieldBuilder) : FieldBuilder :=
  if f.started then { done := f.done.push f.current.toList } else { f with current := #[] }

/-- End the current field, even an empty one. -/
def closeAlways (f : FieldBuilder) : FieldBuilder := { done := f.done.push f.current.toList }

/-- Split a value at the separators into the fields. -/
def split (ifs : String) (f : FieldBuilder) (s : String) : FieldBuilder :=
  s.toList.foldl (fun f c =>
    if ifs.contains c then
      if c == ' ' || c == '\t' || c == '\n' then f.close else f.closeAlways
    else f.add [(c, false)] true) f

end FieldBuilder

/-- The fields of a word's pieces. -/
def fieldsOf (ifs : String) (pieces : List Piece) : List (List PatternChar) :=
  let f := pieces.foldl (fun (f : FieldBuilder) p =>
    match p with
    | .text s q => f.add (s.toList.map (·, q)) (q || !s.isEmpty)
    | .value s => f.split ifs s
    | .quotedValue s => f.add (s.toList.map (·, true)) true
    | .fieldBreak => f.close) {}
  f.close.done.toList

/-- The pieces as one text, without splitting. -/
def piecesText (pieces : List Piece) : String :=
  String.join (pieces.map fun p =>
    match p with
    | .text s _ | .value s | .quotedValue s => s
    | .fieldBreak => " ")

/-- The pieces as a pattern: what was quoted matches itself. -/
def piecesPattern (pieces : List Piece) : List PatternChar :=
  pieces.flatMap fun p =>
    match p with
    | .text s q => s.toList.map (·, q)
    | .value s => s.toList.map (·, false)
    | .quotedValue s => s.toList.map (·, true)
    | .fieldBreak => [(' ', true)]

/-- Pieces made quoted, as inside double quotes. -/
def quotePieces (pieces : List Piece) : List Piece :=
  pieces.map fun p =>
    match p with
    | .text s _ => .text s true
    | .value s => .quotedValue s
    | other => other

/-- Whether a word holds `"$@"`. -/
def hasQuotedAt (w : Word) : Bool :=
  w.any fun p =>
    match p with
    | .param "@" _ true => true
    | _ => false

/-- The parts of a here-document body: parameters, command substitutions and arithmetic are
expanded, and a backslash quotes `$`, a backquote, a backslash and a line end. -/
def hereDocParts (s : Array Char) : Nat → Nat → Word → Word
  | 0, _, w => w
  | fuel + 1, i, w =>
    match s[i]? with
    | none => w
    | some '\\' =>
      match s[i + 1]? with
      | some d =>
        if d == '$' || d == '`' || d == '\\' then hereDocParts s fuel (i + 2) (pushLiteral w d.toString)
        else if d == '\n' then hereDocParts s fuel (i + 2) w
        else hereDocParts s fuel (i + 1) (pushLiteral w "\\")
      | none => pushLiteral w "\\"
    | some '$' =>
      match readDollar s i true with
      | .ok (some p, j) => hereDocParts s fuel j (w ++ [p])
      | _ => hereDocParts s fuel (i + 1) (pushLiteral w "$")
    | some '`' =>
      match readBackquote s s.size (i + 1) [] with
      | .ok (src, j) => hereDocParts s fuel j (w ++ [.command src true])
      | .error _ => hereDocParts s fuel (i + 1) (pushLiteral w "`")
    | some c => hereDocParts s fuel (i + 1) (pushLiteral w c.toString)

/-- The word of a here-document body. -/
def hereDocWord (body : String) : Word :=
  let s := body.toList.toArray
  hereDocParts s (s.size + 1) 0 []

/-- The word written in a parameter expansion (`${x:-word}`), read again from its source. -/
def sourceWord (src : String) : Word :=
  let s := src.toList.toArray
  match readWord s (s.size + 1) 0 [] with
  | .ok (w, j) => if j < s.size then w ++ [.bare (sliceOf s j s.size)] else w
  | .error _ => [.bare src]

/-- Why a file cannot be created, as the shell says it. -/
def createReason (e : IoError) : String :=
  if e == .notFound || e == .notADirectory then "Directory nonexistent" else e.reason

/-- Why a file cannot be opened, as the shell says it. -/
def openReason (e : IoError) : String :=
  if e == .notFound || e == .notADirectory then "No such file" else e.reason

/-- The file names a field expands to, or the field itself. -/
def globField (f : List PatternChar) : ShellM (List String) := do
  let s ← shell
  if s.noglob || !hasWildcard f then pure [patternText f]
  else
    match expandPaths (← files) s.cwd f with
    | some found => pure found
    | none => pure [patternText f]

/-- The value of a parameter: special parameters, positional ones and variables. -/
def paramValue (name : String) : ShellM (Option String) := do
  let s ← shell
  match name with
  | "?" => pure (some (toString s.status))
  | "$" => pure (some (toString s.pid))
  | "#" => pure (some (toString s.positional.length))
  | "0" => pure (some s.name)
  | "!" => pure (s.lastBackground.map toString)
  | "-" => pure (some ((if s.errexit then "e" else "") ++ (if s.nounset then "u" else "") ++
      (if s.xtrace then "x" else "") ++ (if s.noglob then "f" else "")))
  | "@" | "*" => pure (some (" ".intercalate s.positional))
  | _ =>
    if !name.isEmpty && name.all Char.isDigit then pure (s.positional[name.toNat! - 1]?)
    else lookup name

/-- The outcome of running a loop body: normal, or a jump out of it. -/
inductive LoopStep where
  | normal (status : Nat)
  | leave
  | again
  deriving DecidableEq, Repr

/-- Run a loop body, catching the `break` and `continue` meant for this loop. -/
def catchLoopFlow (action : ShellM Nat) : ShellM LoopStep :=
  tryCatch (do pure (LoopStep.normal (← action))) fun e =>
    match e with
    | .breakOut 1 => pure .leave
    | .breakOut n => throw (.breakOut (n - 1))
    | .continueOn 1 => pure .again
    | .continueOn n => throw (.continueOn (n - 1))
    | other => throw other

/-- Run code in a subshell: with a copy of the shell's state, which is restored afterwards.
The subshell keeps the signals the shell ignores but none of its other traps; when it ends,
`onExit` runs with its status in its state and gives the final status. An exit ends only the
subshell; a signal for a process goes on. -/
def subshell (onExit : Nat → ShellM Nat) (action : ShellM Nat) : ShellM Nat := do
  let saved ← shell
  modifyShell fun s => { s with traps := s.traps.filter (·.2.isEmpty) }
  let result ← tryCatch (do pure (Except.ok (← action))) fun e =>
    match e with
    | .exit c => pure (.ok c)
    | .returned c => pure (.ok c)
    | .breakOut _ | .continueOn _ => pure (.ok 0)
    | other => pure (.error other)
  let result ← match result with
    | .ok n => tryCatch (do pure (Except.ok (← onExit n))) fun e => pure (.error e)
    | .error e => pure (.error e)
  modifyShell fun _ => saved
  match result with
  | .ok n => pure n
  | .error e => throw e

/-- Restore the descriptors after a command. -/
def withDescriptors (saved : List (Nat × Descriptor)) (action : ShellM Nat) : ShellM Nat :=
  tryFinally action (modifyShell fun s => { s with fds := saved })

/-- Write text to a descriptor of a given table. -/
def writeVia (fds : List (Nat × Descriptor)) (fd : Nat) (text : String) : ShellM Unit :=
  match ((fds.find? (·.1 == fd)).map (·.2) : Option Descriptor) with
  | some (.writer sink) => writeSink sink text
  | _ => pure ()

/-- The text waiting on standard input in a descriptor table. -/
def inputOf (fds : List (Nat × Descriptor)) : String :=
  match ((fds.find? (·.1 == 0)).map (·.2) : Option Descriptor) with
  | some (.reader text) => text
  | _ => ""

/-- The signals whose default action leaves a process running. -/
def harmlessSignals : List Nat := [0, 17, 18, 19, 20, 23, 28]

/-- Send a signal to the processes `kill` names. The running shell and the processes that
started it can be reached; a signal that ends a process stops the run up to it. A signal the
running shell traps does not end it: an empty action ignores it, another waits to run after
the current command. -/
def sendSignals (running : List Nat) (signal : Nat) (pids : List String)
    (noProcess : String → ShellM Unit) : ShellM Nat := do
  let mut status := 0
  for p in pids do
    match p.toInt? with
    | some n =>
      let target := if n ≤ 0 then (running.head?.getD 0) else n.toNat
      let s ← shell
      let trapped := if target == s.pid && signal != 9 && signal != 19 then
        (s.traps.find? (·.1 == signal)).map (·.2) else none
      if running.contains target then
        match trapped with
        | some action =>
          if !action.isEmpty then
            modifyShell fun s => { s with pendingTraps := s.pendingTraps ++ [action] }
        | none => if !harmlessSignals.contains signal then throw (.killed target signal)
      else
        noProcess p
        status := 1
    | none =>
      noProcess p
      status := 1
  pure status

/-- Read the arguments of `kill`: the signal and the process numbers, or a complaint. -/
def killArguments (args : List String) : Except String (Nat × List String) :=
  match args with
  | "-s" :: sig :: rest =>
    match parseSignal sig with
    | some n => .ok (n, rest)
    | none => .error ("invalid signal number or name: " ++ sig)
  | "--" :: rest => .ok (15, rest)
  | a :: rest =>
    if a.startsWith "-" && a.length > 1 then
      match parseSignal (Text.dropChars a 1) with
      | some n => .ok (n, rest.dropWhile (· == "--"))
      | none => .error ("invalid signal number or name: " ++ Text.dropChars a 1)
    else .ok (15, args)
  | [] => .error "usage: kill [-s sigspec | -signum | -sigspec] [pid | job]..."

/-- The `kill` builtin. -/
def killBuiltin (args : List String) : ShellM Nat := do
  match killArguments args with
  | .error m =>
    complain ("kill: " ++ m)
    pure 2
  | .ok (_, []) =>
    complain "kill: usage: kill [-s sigspec | -signum | -sigspec] [pid | job]..."
    pure 2
  | .ok (signal, pids) =>
    let running := (← world).running
    sendSignals (((← shell).pid) :: running) signal pids fun p => do
      if p.toInt?.isSome then complain "kill: No such process"
      else complain ("kill: Illegal number: " ++ p)

/-- The environment a program started by the shell gets: the exported variables, with the
command's own assignments on top. -/
def childEnvironment (assigns : List (String × String)) : ShellM (List (String × String)) := do
  let base ← environment
  let kept := base.filter fun (n, _) => !assigns.any (·.1 == n)
  pure (kept ++ assigns)

/-- The fuel of a run: how deep commands, scripts and programs may nest. -/
def runFuel : Nat := 1000

/-- How many times a loop may run. -/
def loopLimit : Nat := 100000


/-- The variables a shell starts with: its environment, with `PWD` naming the working
directory. A `PWD` inherited from the environment stays when it is an absolute path to the
working directory; otherwise the shell sets it. -/
def startingEnvironment (t : FileTree) (cwd : Location) (env : List (String × String)) :
    List (String × String) :=
  let here := "/" ++ "/".intercalate cwd
  match env.find? (·.1 == "PWD") with
  | some (_, p) =>
    if p.startsWith "/" && (t.lookup [] p).toOption.map (·.1) == some cwd then env
    else env.map fun (k, v) => if k == "PWD" then (k, here) else (k, v)
  | none => env ++ [("PWD", here)]

mutual

/-- The pieces of a word part. -/
def partPieces : Nat → Part → ShellM (List Piece)
  | 0, _ => outOfFuel
  | fuel + 1, p =>
    match p with
    | .bare t => pure [.text t false]
    | .literal t => pure [.text t true]
    | .param name op quoted => paramPieces fuel name op quoted
    | .command src quoted => do
      let out ← substitute fuel src
      pure [if quoted then .quotedValue out else .value out]
    | .arith src quoted => do
      let text := piecesText (← wordPieces fuel (sourceWord src))
      let s ← shell
      let vars := fun n => arithValueOf (((s.vars.find? (·.1 == n)).map (·.2)).getD "")
      match evalArith text vars with
      | .ok v => pure [if quoted then .quotedValue (toString v) else .value (toString v)]
      | .error m =>
        complain m
        throw (.exit 2)

/-- The pieces of a parameter expansion. -/
def paramPieces : Nat → String → ParamOp → Bool → ShellM (List Piece)
  | 0, _, _, _ => outOfFuel
  | fuel + 1, name, op, quoted => do
    let s ← shell
    let value ← paramValue name
    let piece (v : String) : List Piece := [if quoted then .quotedValue v else .value v]
    let unsetOrNull (colon : Bool) := value.isNone || (colon && value == some "")
    let nested (src : String) : ShellM (List Piece) := do
      let ps ← wordPieces fuel (sourceWord src)
      pure (if quoted then quotePieces ps else ps)
    match op with
    | .plain =>
      if name == "@" || name == "*" then
        if quoted && name == "@" then
          pure ((s.positional.map Piece.quotedValue).intersperse .fieldBreak)
        else if quoted then
          let sep := ((← fieldSeparators).toList.head?.map Char.toString).getD ""
          pure [.quotedValue (sep.intercalate s.positional)]
        else pure ((s.positional.map Piece.value).intersperse .fieldBreak)
      else
        match value with
        | some v => pure (piece v)
        | none =>
          if s.nounset && isName name then
            complain (name ++ ": parameter not set")
            throw (.exit 2)
          else pure (piece "")
    | .length => pure (piece (toString (value.getD "").length))
    | .useDefault w colon => if unsetOrNull colon then nested w else pure (piece (value.getD ""))
    | .assignDefault w colon =>
      if unsetOrNull colon then
        let v := piecesText (← nested w)
        if isName name then
          setVar name v
          pure (piece v)
        else
          complain ("1: bad variable name")
          throw (.exit 2)
      else pure (piece (value.getD ""))
    | .useAlternative w colon => if unsetOrNull colon then pure [] else nested w
    | .errorIfUnset w colon =>
      if unsetOrNull colon then
        let given := piecesText (← nested w)
        let message := if w.isEmpty then (if colon && value.isSome then "parameter null or not set"
            else "parameter not set")
          else given
        complain (name ++ ": " ++ message)
        throw (.exit 2)
      else pure (piece (value.getD ""))
    | .removeSuffix p longest => do
      let pat := piecesPattern (← wordPieces fuel (sourceWord p))
      pure (piece (removeSuffix pat (value.getD "") longest))
    | .removePrefix p longest => do
      let pat := piecesPattern (← wordPieces fuel (sourceWord p))
      pure (piece (removePrefix pat (value.getD "") longest))
    | .invalid =>
      complain "Bad substitution"
      throw (.exit 2)

/-- The pieces of a word. -/
def wordPieces : Nat → Word → ShellM (List Piece)
  | 0, _ => outOfFuel
  | fuel + 1, w => do
    let noParams := (← shell).positional.isEmpty
    let w := if noParams && hasQuotedAt w then w.filter (· != .literal "") else w
    let mut pieces : Array Piece := #[]
    for p in w do
      pieces := pieces ++ (← partPieces fuel p).toArray
    pure pieces.toList

/-- The fields of words, with file names matched. -/
def expandWords : Nat → List Word → ShellM (List String)
  | 0, _ => outOfFuel
  | fuel + 1, words => do
    let ifs ← fieldSeparators
    let mut out : Array String := #[]
    for w in words do
      for f in fieldsOf ifs (← wordPieces fuel w) do
        out := out ++ (← globField f).toArray
    pure out.toList

/-- The text of a word, not split. -/
def expandText : Nat → Word → ShellM String
  | 0, _ => outOfFuel
  | fuel + 1, w => do pure (piecesText (← wordPieces fuel w))

/-- The output of a command substitution, without its trailing line ends. The commands run in
a subshell; the status is kept for a command without words. -/
def substitute : Nat → String → ShellM String
  | 0, _ => outOfFuel
  | fuel + 1, src => do
    let outer := (← world).captured
    modifyWorld fun w => { w with captured := "" }
    let status ← tryCatch (subshell (exitTrap fuel) (do
        setDescriptor 1 (.writer .capture)
        runText fuel src)) fun e => do
      modifyWorld fun w => { w with captured := outer }
      throw e
    let out := (← world).captured
    modifyWorld fun w => { w with captured := outer }
    modifyShell fun s => { s with substitutionStatus := some status }
    pure (String.ofList (out.toList.reverse.dropWhile (· == '\n')).reverse)

/-- Run a script's text: read and run one complete command after another. A syntax error
ends the shell with status 2. -/
def runText : Nat → String → ShellM Nat
  | 0, _ => outOfFuel
  | fuel + 1, text => do
    let tokens := tokenize text
    let mut pos := 0
    for _ in [0:tokens.size + 1] do
      match readCommandAt tokens pos with
      | .ok none => break
      | .ok (some (cmd, next)) =>
        pos := next
        let _ ← runCommand fuel cmd false
      | .error e =>
        modifyShell fun s => { s with line := e.line }
        complain ("Syntax error: " ++ e.message)
        throw (.exit 2)
    pure (← shell).status

/-- Apply redirections in order; false when one failed (after the complaint). -/
def applyRedirects : Nat → List Redirect → ShellM Bool
  | 0, _ => outOfFuel
  | fuel + 1, redirects => do
    let mut ok := true
    for r in redirects do
      let s ← shell
      let t ← files
      match r with
      | .output fd target append =>
        let path ← expandText fuel target
        if path == nullDevice then
          setDescriptor fd (.writer .discard)
          continue
        let opened := if append then (t.openAppend s.cwd path).map fun (t', loc, _) => (t', loc)
          else t.openTruncate s.cwd path false
        match opened with
        | .ok (t', loc) =>
          setFiles t'
          setDescriptor fd (.writer (.file loc))
        | .error e =>
          complain ("cannot create " ++ path ++ ": " ++ createReason e)
          ok := false
          break
      | .input fd target =>
        let path ← expandText fuel target
        if path == nullDevice then
          setDescriptor fd (.reader "")
          continue
        match t.lookup s.cwd path with
        | .ok (_, .file content _) => setDescriptor fd (.reader content)
        | .ok (_, .directory) => setDescriptor fd (.reader "")
        | .error e =>
          complain ("cannot open " ++ path ++ ": " ++ openReason e)
          ok := false
          break
      | .readWrite fd target =>
        let path ← expandText fuel target
        if path == nullDevice then
          setDescriptor fd (.reader "")
          continue
        match t.lookup s.cwd path with
        | .ok (_, .file content _) => setDescriptor fd (.reader content)
        | .ok (_, .directory) => setDescriptor fd (.reader "")
        | .error _ =>
          match t.openTruncate s.cwd path false with
          | .ok (t', _) =>
            setFiles t'
            setDescriptor fd (.reader "")
          | .error e =>
            complain ("cannot create " ++ path ++ ": " ++ createReason e)
            ok := false
            break
      | .duplicate fd target =>
        let text ← expandText fuel target
        if text == "-" then closeDescriptor fd
        else if !text.isEmpty && text.all Char.isDigit then
          match ← descriptor text.toNat! with
          | some d => setDescriptor fd d
          | none =>
            complain (text ++ ": Bad file descriptor")
            ok := false
            break
        else
          complain "Syntax error: Bad fd number"
          ok := false
          break
      | .hereDoc fd body expand =>
        let text ← if expand then expandText fuel (hereDocWord body) else pure body
        setDescriptor fd (.reader text)
    pure ok

/-- Run a command with redirections that are undone afterwards. A failed redirection gives
status 2 without running the command. -/
def redirected : Nat → List Redirect → ShellM Nat → ShellM Nat
  | 0, _, _ => outOfFuel
  | fuel + 1, redirects, action => do
    let saved := (← shell).fds
    if redirects.isEmpty then action
    else
      withDescriptors saved (do
        if ← applyRedirects fuel redirects then action else pure 2)

/-- Run a command. `tested` marks a command whose failure does not end the shell under
`set -e` (a condition, or a command before `&&` or `||`). The status becomes `$?`. -/
def runCommand : Nat → Command → Bool → ShellM Nat
  | 0, _, _ => outOfFuel
  | fuel + 1, c, tested => do
    let n ← match c with
      | .simple assigns words redirects line => runSimple fuel assigns words redirects line
      | .group body redirects => redirected fuel redirects (runCommand fuel body tested)
      | .subshell body redirects =>
        redirected fuel redirects (subshell (exitTrap fuel) (runCommand fuel body tested))
      | .ifThen branches otherwise redirects =>
        redirected fuel redirects (do
          let mut result : Option Nat := none
          for (condition, body) in branches do
            if (← runCommand fuel condition true) == 0 then
              result := some (← runCommand fuel body tested)
              break
          match result with
          | some n => pure n
          | none =>
            match otherwise with
            | some e => runCommand fuel e tested
            | none => pure 0)
      | .loop condition body untilLoop redirects =>
        redirected fuel redirects (do
          let mut last := 0
          for _ in [0:loopLimit] do
            let st ← runCommand fuel condition true
            if (st == 0) == untilLoop then break
            match ← catchLoopFlow (runCommand fuel body tested) with
            | .normal n => last := n
            | .leave =>
              last := 0
              break
            | .again => pure ()
          pure last)
      | .forEach name items body redirects =>
        redirected fuel redirects (do
          let values ← match items with
            | some ws => expandWords fuel ws
            | none => do pure (← shell).positional
          let mut last := 0
          for v in values do
            assign "" name v
            match ← catchLoopFlow (runCommand fuel body tested) with
            | .normal n => last := n
            | .leave =>
              last := 0
              break
            | .again => pure ()
          pure last)
      | .caseOf subject arms redirects =>
        redirected fuel redirects (do
          let text ← expandText fuel subject
          let mut result := 0
          for (patterns, body) in arms do
            let mut hit := false
            for p in patterns do
              if patternMatches (piecesPattern (← wordPieces fuel p)) text then
                hit := true
                break
            if hit then
              result ← runCommand fuel body tested
              break
          pure result)
      | .function name body => do
        modifyShell fun s => { s with functions := (name, body) :: s.functions.filter (·.1 != name) }
        pure 0
      | .pipeline negated stages => do
        let n ← runPipeline fuel stages (tested || negated)
        pure (if negated then (if n == 0 then 1 else 0) else n)
      | .andOr first rest => do
        let mut st ← runCommand fuel first true
        let count := rest.length
        for ((isAnd, cmd), i) in rest.zipIdx do
          if (isAnd && st == 0) || (!isAnd && st != 0) then
            st ← runCommand fuel cmd (if i + 1 == count then tested else true)
        pure st
      | .sequence items => do
        let mut st := 0
        for item in items do
          st ← runCommand fuel item tested
        pure st
      | .background body => do
        let _ ← subshell (exitTrap fuel) (runCommand fuel body true)
        let pid ← freshPid
        modifyShell fun s => { s with lastBackground := some pid }
        pure 0
    modifyShell fun s => { s with status := n }
    let s ← shell
    let checked := match c with
      | .simple .. | .subshell .. => true
      | .pipeline negated _ => !negated
      | _ => false
    if checked && !tested && s.errexit && n != 0 then throw (.exit n)
    pure n

/-- Run the stages of a pipeline, each reading what the one before wrote. Its status is that
of the last stage, or with `pipefail` that of the rightmost stage that failed. -/
def runPipeline : Nat → List Command → Bool → ShellM Nat
  | 0, _, _ => outOfFuel
  | fuel + 1, stages, tested =>
    match stages with
    | [single] => runCommand fuel single tested
    | _ => do
      let count := stages.length
      let mut input : Option String := none
      let mut last := 0
      let mut failed := 0
      for (stage, i) in stages.zipIdx do
        let isLast := i + 1 == count
        let outer := (← world).captured
        if !isLast then modifyWorld fun w => { w with captured := "" }
        let feed := input
        let st ← tryCatch (subshell (exitTrap fuel) (do
            match feed with
            | some text => setDescriptor 0 (.reader text)
            | none => pure ()
            if !isLast then setDescriptor 1 (.writer .capture)
            runCommand fuel stage true)) fun e => do
          if !isLast then modifyWorld fun w => { w with captured := outer }
          throw e
        if !isLast then
          input := some (← world).captured
          modifyWorld fun w => { w with captured := outer }
        last := st
        if st != 0 then failed := st
      pure (if (← shell).pipefail then failed else last)

/-- Run a simple command. -/
def runSimple : Nat → List (String × Word) → List Word → List Redirect → Nat → ShellM Nat
  | 0, _, _, _, _ => outOfFuel
  | fuel + 1, assigns, words, redirects, line => do
    modifyShell fun s => { s with line := line, substitutionStatus := none }
    let argv ← expandWords fuel words
    let mut values : Array (String × String) := #[]
    for (n, w) in assigns do
      values := values.push (n, ← expandText fuel w)
    if (← shell).xtrace then
      write 2 ("+ " ++ " ".intercalate (values.toList.map (fun (n, v) => n ++ "=" ++ v) ++ argv) ++ "\n")
    match argv with
    | [] =>
      for (n, v) in values do assign "" n v
      let saved := (← shell).fds
      let ok ← applyRedirects fuel redirects
      modifyShell fun s => { s with fds := saved }
      let last := (← shell).substitutionStatus.getD 0
      pure (if ok then last else 2)
    | ["exec"] =>
      for (n, v) in values do assign "" n v
      if ← applyRedirects fuel redirects then pure 0 else throw (.exit 2)
    | name :: args =>
      let st ← redirected fuel redirects (invoke fuel name args values.toList)
      let pending := (← shell).pendingTraps
      modifyShell fun s => { s with pendingTraps := [] }
      for action in pending do
        modifyShell fun s => { s with status := st }
        let _ ← runText fuel action
      pure st

/-- Run the action the shell set for its exit, if any, once: with the exit status as `$?`.
An `exit` in the action gives the final status; otherwise the status stays. -/
def exitTrap : Nat → Nat → ShellM Nat
  | 0, code => pure code
  | fuel + 1, code => do
    match (← shell).traps.find? (·.1 == 0) with
    | some (_, action) =>
      modifyShell fun s => { s with traps := s.traps.filter (·.1 != 0), status := code }
      if action.isEmpty then pure code
      else
        tryCatch (do let _ ← runText fuel action; pure code) fun e =>
          match e with
          | .exit c => pure (c % 256)
          | .returned _ | .breakOut _ | .continueOn _ => pure code
          | other => throw other
    | none => pure code

/-- Run a command by name: a special builtin, a function, a builtin or a program. -/
def invoke : Nat → String → List String → List (String × String) → ShellM Nat
  | 0, _, _, _ => outOfFuel
  | fuel + 1, name, args, assigns => do
    let s ← shell
    if specialBuiltins.contains name || (s.dialect == .bash && name == "source") then
      for (n, v) in assigns do assign "" n v
      special fuel name args
    else
      match s.functions.find? (·.1 == name) with
      | some (_, body) =>
        for (n, v) in assigns do assign "" n v
        callFunction fuel body args
      | none =>
        if regularBuiltins.contains name then
          -- the assignments hold for the builtin only; what it sets itself stays
          let mut saved : Array (String × Option String) := #[]
          for (n, v) in assigns do
            saved := saved.push (n, ← lookup n)
            assign "" n v
          let st ← builtin fuel name args
          for (n, old) in saved.toList.reverse do
            match old with
            | some v => setVar n v
            | none => unsetVar n
          pure st
        else execute fuel name args assigns

/-- Run a special builtin. -/
def special : Nat → String → List String → ShellM Nat
  | 0, _, _ => outOfFuel
  | fuel + 1, name, args =>
    match name with
    | ":" => pure 0
    | "." | "source" => sourceFile fuel args
    | "break" | "continue" | "return" => jumpBuiltin name args
    | "eval" => runText fuel (" ".intercalate args)
    | "exec" => do
      match args with
      | [] => pure 0
      | cmd :: rest =>
        -- the program replaces the shell, which runs no action at its exit
        modifyShell fun s => { s with traps := [] }
        let st ← execute fuel cmd rest []
        throw (.exit st)
    | "exit" => exitBuiltin args
    | "export" => exportBuiltin args
    | "readonly" => readonlyBuiltin args
    | "set" => setBuiltin args
    | "shift" => shiftBuiltin args
    | "times" => timesBuiltin
    | "trap" => trapBuiltin args
    | "unset" => unsetBuiltin args
    | _ => pure 0

/-- Run a regular builtin. -/
def builtin : Nat → String → List String → ShellM Nat
  | 0, _, _ => outOfFuel
  | fuel + 1, name, args =>
    match name with
    | "echo" => echoBuiltin args
    | "printf" => printfBuiltin args
    | "test" | "[" => testBuiltin name args
    | "true" => pure 0
    | "false" => pure 1
    | "cd" => cdBuiltin args
    | "pwd" => pwdBuiltin
    | "read" => readBuiltin args
    | "kill" => killBuiltin args
    | "umask" => umaskBuiltin args
    | "local" => localBuiltin args
    | "type" => describe fuel args true
    | "command" =>
      match args with
      | "-v" :: names => describe fuel names false
      | "-V" :: names => describe fuel names true
      | cmd :: rest => do
        if specialBuiltins.contains cmd then special fuel cmd rest
        else if regularBuiltins.contains cmd then builtin fuel cmd rest
        else execute fuel cmd rest []
      | [] => pure 0
    | "getopts" => pure 1
    | "ulimit" => do
      write 1 "unlimited\n"
      pure 0
    | _ => pure 0

/-- `type NAME…` (or `command -v` when not `verbose`): how each name would run. -/
def describe : Nat → List String → Bool → ShellM Nat
  | 0, _, _ => outOfFuel
  | _ + 1, names, verbose => do
    let mut status := 0
    for n in names do
      let s ← shell
      let searchPath := (← lookup "PATH").getD defaultSearchPath
      if specialBuiltins.contains n then
        write 1 (if verbose then n ++ " is a special shell builtin\n" else n ++ "\n")
      else if (s.functions.find? (·.1 == n)).isSome then
        write 1 (if verbose then n ++ " is a shell function\n" else n ++ "\n")
      else if regularBuiltins.contains n then
        write 1 (if verbose then n ++ " is a shell builtin\n" else n ++ "\n")
      else
        match locateCommand (← files) s.cwd searchPath n with
        | some path => write 1 (if verbose then n ++ " is " ++ path ++ "\n" else path ++ "\n")
        | none =>
          if verbose then write 1 (n ++ ": not found\n")
          status := 127
    pure status

/-- Run `. FILE`: the file's commands in the running shell. -/
def sourceFile : Nat → List String → ShellM Nat
  | 0, _ => outOfFuel
  | fuel + 1, args => do
    match args with
    | [] => pure 0
    | path :: rest =>
      let s ← shell
      let t ← files
      let searchPath := (← lookup "PATH").getD defaultSearchPath
      let content : Except String String :=
        if path.contains '/' then
          match t.lookup s.cwd path with
          | .ok (_, .file c _) => .ok c
          | .ok (_, .directory) => .ok ""
          | .error e => .error ("cannot open " ++ path ++ ": " ++ openReason e)
        else
          match (candidates searchPath path).findSome? fun c =>
              match t.lookup s.cwd c with
              | .ok (_, .file c _) => some c
              | _ => none with
          | some c => .ok c
          | none => .error (path ++ ": not found")
      match content with
      | .error m =>
        complain (".: " ++ m)
        throw (.exit 2)
      | .ok text =>
        let saved := s.positional
        if !rest.isEmpty then modifyShell fun s => { s with positional := rest }
        let st ← tryCatch (runText fuel text) fun e =>
          match e with
          | .returned c => pure c
          | other => throw other
        if !rest.isEmpty then modifyShell fun s => { s with positional := saved }
        pure st

/-- Call a function with arguments as its positional parameters. -/
def callFunction : Nat → Command → List String → ShellM Nat
  | 0, _, _ => outOfFuel
  | fuel + 1, body, args => do
    let saved := (← shell).positional
    modifyShell fun s => { s with positional := args, frames := [] :: s.frames }
    let result : Except Flow Nat ←
      tryCatch (do pure (.ok (← runCommand fuel body false))) fun e => pure (.error e)
    restoreLocals
    modifyShell fun s => { s with positional := saved }
    match result with
    | .ok st => pure st
    | .error (.returned c) => pure c
    | .error other => throw other

/-- Start a program by name from the shell: find it on `PATH`, run it, and report a failure
to start it the way the shell does. -/
def execute : Nat → String → List String → List (String × String) → ShellM Nat
  | 0, _, _, _ => outOfFuel
  | fuel + 1, name, args, assigns => do
    let s ← shell
    let env ← childEnvironment assigns
    let searchPath := (← lookup "PATH").getD defaultSearchPath
    match locateCommand (← files) s.cwd searchPath name with
    | none =>
      complain (name ++ ": not found")
      pure 127
    | some path =>
      let started ← launch fuel path (name :: args) env s.cwd s.fds
      let started ← match started with
        | .error e =>
          if e == .execFormat then launch fuel "/bin/sh" ("/bin/sh" :: path :: args) env s.cwd s.fds
          else pure (.error e)
        | ok => pure ok
      match started with
      | .ok ending =>
        match ending with
        | .signaled sig =>
          if s.dialect == .dash then
            match signalDescription sig with
            | some d => write 2 (d ++ "\n")
            | none => pure ()
        | .exited _ => pure ()
        pure ending.status
      | .error e =>
        if e == .permissionDenied then
          complain (name ++ ": Permission denied")
          pure 126
        else if e == .notFound || e == .notADirectory then
          complain (name ++ ": not found")
          pure 127
        else
          complain (name ++ ": " ++ e.reason)
          pure 2

/-- Start a program at a path, as `execve` would: the arguments (the first being the name it
was started by), the environment, the working directory and the open descriptors. -/
def launch : Nat → String → List String → List (String × String) → Location →
    List (Nat × Descriptor) → ShellM (Except IoError Ending)
  | 0, _, _, _, _, _ => outOfFuel
  | fuel + 1, path, argv, env, cwd, fds => do
    let t ← files
    match systemProgram? t cwd path with
    | some prog => do pure (.ok (← runProgram fuel prog argv env cwd fds))
    | none =>
      match t.lookup cwd path with
      | .error e => pure (.error e)
      | .ok (_, .directory) => pure (.error .permissionDenied)
      | .ok (_, .file content executable) =>
        if !executable then pure (.error .permissionDenied)
        else
          match shebang content with
          | some (interp, arg) =>
            launch fuel interp ([interp] ++ arg.toList ++ [path] ++ argv.drop 1) env cwd fds
          | none => pure (.error .execFormat)

/-- Run a program of the system. -/
def runProgram : Nat → Program → List String → List (String × String) → Location →
    List (Nat × Descriptor) → ShellM Ending
  | 0, _, _, _, _, _ => outOfFuel
  | fuel + 1, prog, argv, env, cwd, fds =>
    match prog with
    | .tool t => do
      let run : ToolRun := ⟨(argv.head?.getD ""), argv.drop 1, inputOf fds, env, cwd⟩
      let outcome := runTool t run (← files)
      setFiles outcome.files
      for (fd, text) in outcome.output do writeVia fds fd text
      pure (.exited outcome.status)
    | .shell d => runShellProcess fuel d argv env cwd fds
    | .env => envProgram fuel argv env cwd fds
    | .kill => do
      let program := argv.head?.getD "kill"
      match killArguments (argv.drop 1) with
      | .error m =>
        writeVia fds 2 (program ++ ": " ++ m ++ "\n")
        pure (.exited 1)
      | .ok (signal, pids) =>
        let st ← sendSignals (← world).running signal pids fun p =>
          writeVia fds 2 (program ++ ": (" ++ p ++ "): No such process\n")
        pure (.exited st)

/-- Run `env [-i] [-u NAME] [-S WORDS] [NAME=VALUE]… [COMMAND ARG…]`; `-S` splits its text
into arguments at blanks, as an interpreter line needs. -/
def envProgram : Nat → List String → List (String × String) → Location →
    List (Nat × Descriptor) → ShellM Ending
  | 0, _, _, _, _ => outOfFuel
  | fuel + 1, argv, env, cwd, fds => do
    let rec settle : Nat → List String → List (String × String) →
        List (String × String) × List String
      | 0, rest, e => (e, rest)
      | _ + 1, [], e => (e, [])
      | n + 1, a :: rest, e =>
        if a == "-i" || a == "-" then settle n rest []
        else if a == "-S" then
          match rest with
          | words :: more => settle n (wordsOf words ++ more) e
          | [] => (e, [])
        else if a.startsWith "-S" then settle n (wordsOf (Text.dropChars a 2) ++ rest) e
        else if a == "-u" then
          match rest with
          | name :: more => settle n more (e.filter (·.1 != name))
          | [] => (e, [])
        else if a == "--" then (e, rest)
        else if a.contains '=' && !a.startsWith "=" then
          let name := String.ofList (a.toList.takeWhile (· != '='))
          let value := Text.dropChars a (name.length + 1)
          settle n rest (e.filter (·.1 != name) ++ [(name, value)])
        else (e, a :: rest)
    let args := argv.drop 1
    let (env', command) := settle (args.length + 1) args env
    match command with
    | [] =>
      for (k, v) in env' do writeVia fds 1 (k ++ "=" ++ v ++ "\n")
      pure (.exited 0)
    | cmd :: rest =>
      let searchPath := ((env'.find? (·.1 == "PATH")).map (·.2)).getD defaultSearchPath
      let located := locateExecutable (← files) cwd searchPath cmd
      let started ← match located with
        | .ok path => launch fuel path (cmd :: rest) env' cwd fds
        | .error e => pure (.error e)
      match started with
      | .ok ending => pure ending
      | .error e =>
        writeVia fds 2 ("env: " ++ quoteName cmd ++ ": " ++ e.reason ++ "\n")
        pure (.exited (if e == .notFound then 127 else 126))

/-- Run a shell process: `sh -c COMMANDS [NAME ARG…]`, `sh SCRIPT ARG…`, or `sh` reading its
standard input. The process ends with the status of its last command, by `exit`, or by a
signal sent to it. -/
def runShellProcess : Nat → Dialect → List String → List (String × String) → Location →
    List (Nat × Descriptor) → ShellM Ending
  | 0, _, _, _, _, _ => outOfFuel
  | fuel + 1, dialect, argv, env, cwd, fds => do
    let pid ← freshPid
    let program := argv.head?.getD "sh"
    let args := argv.drop 1
    let flags := (args.takeWhile fun a => a.length > 1 && (a.startsWith "-" || a.startsWith "+") && a != "--")
    let operands := args.drop flags.length
    let operands := if operands.head? == some "--" then operands.drop 1 else operands
    let letters := flags.flatMap fun f => if f.startsWith "-" then f.toList.drop 1 else []
    let t ← files
    let env := startingEnvironment t cwd env
    let base : ShellState := {
      vars := env, exported := env.map (·.1), name := program, cwd := cwd, fds := fds, pid := pid,
      dialect := dialect, errexit := letters.contains 'e', nounset := letters.contains 'u',
      xtrace := letters.contains 'x', noglob := letters.contains 'f' }
    let setup : Except (String × Nat) (ShellState × String) :=
      if letters.contains 'c' then
        match operands with
        | [] => .error (program ++ ": 0: -c requires an argument\n", 2)
        | text :: more =>
          let named := more.head?.getD program
          .ok ({ base with
            name := named
            positional := more.drop 1
            commandString := true }, text)
      else
        match operands with
        | [] => .ok (base, inputOf fds)
        | script :: more =>
          match t.lookup cwd script with
          | .ok (_, .file text _) => .ok ({ base with name := script, positional := more }, text)
          | _ =>
            match dialect with
            | .dash => .error (program ++ ": 0: cannot open " ++ script ++ ": No such file\n", 2)
            | .bash => .error (program ++ ": " ++ script ++ ": No such file or directory\n", 127)
    match setup with
    | .error (message, code) =>
      writeVia fds 2 message
      pure (.exited code)
    | .ok (state, text) =>
      let outer ← shell
      modifyShell fun _ => state
      modifyWorld fun w => { w with running := pid :: w.running }
      let leave : ShellM Unit := do
        modifyShell fun _ => outer
        modifyWorld fun w => { w with running := w.running.filter (· != pid) }
      let ending ← tryCatch (do pure (Ending.exited ((← runText fuel text) % 256))) fun e => do
        match e with
        | .exit c => pure (.exited (c % 256))
        | .returned c => pure (.exited (c % 256))
        | .breakOut _ | .continueOn _ => pure (.exited (← shell).status)
        | .killed p sig =>
          if p == pid then pure (.signaled sig)
          else
            leave
            throw e
        | .exhausted =>
          leave
          throw e
      let ending ← match ending with
        | .exited c =>
          tryCatch (do pure (Ending.exited (← exitTrap fuel c))) fun e => do
            match e with
            | .killed p sig =>
              if p == pid then pure (.signaled sig)
              else
                leave
                throw e
            | _ =>
              leave
              throw e
        | other => pure other
      leave
      pure ending

end

/-- Start a program for a release, as the operating system's process launcher does: find it
on the search path unless its name has a `/`, and run it in a directory with the console as
its output. Gives the ending or the failure to start it, and the world afterwards. -/
def startProgram (world : World) (environment : List (String × String)) (cwd : Location)
    (program : String) (args : List String) : Except IoError Ending × World :=
  let searchPath := ((environment.find? (·.1 == "PATH")).map (·.2)).getD defaultSearchPath
  match locateExecutable world.files cwd searchPath program with
  | .error e => (.error e, world)
  | .ok path =>
    let session : Session := ⟨{ cwd := cwd }, world⟩
    let fds : List (Nat × Descriptor) := [(0, .reader ""), (1, .writer .stdout), (2, .writer .stderr)]
    let (result, after) := (launch runFuel path (program :: args) environment cwd fds).run session |>.run
    match result with
    | .ok started => (started, after.world)
    | .error (.killed _ sig) => (.ok (.signaled sig), after.world)
    | .error _ => (.ok (.signaled 9), after.world)

end Shell

end ReleaseBuild
