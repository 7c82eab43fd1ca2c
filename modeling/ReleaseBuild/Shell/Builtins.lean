import ReleaseBuild.Shell.Process
import ReleaseBuild.Shell.Tools.Test
import ReleaseBuild.Shell.Tools.Text
/-!
# Shell builtins

The commands the shell runs itself, without starting a program: they read and change the
shell's own state (`cd`, `set`, `shift`, `export`, `unset`, `read`, `exit`, …) or are simply
faster as part of it (`echo`, `printf`, `test`). The builtins that run shell code (`eval`, `.`,
`exec`, `command`) live with the interpreter.

The two dialects differ here: the `echo` of `sh` reads backslash escapes and knows only `-n`,
while that of `bash` reads escapes only with `-e`; and their complaints are worded
differently. A builtin gives its exit status; one that ends the shell (`exit`, or a mistake in
a special builtin) throws the exit.
-/

namespace ReleaseBuild

namespace Shell

open ShellM

/-- The builtins that the shell runs before looking for functions, whose assignments stay,
and whose mistakes end a script. -/
def specialBuiltins : List String :=
  [":", ".", "break", "continue", "eval", "exec", "exit", "export", "readonly", "return", "set",
    "shift", "times", "trap", "unset"]

/-- The other builtins. -/
def regularBuiltins : List String :=
  ["echo", "printf", "test", "[", "true", "false", "cd", "pwd", "read", "kill", "type", "command",
    "wait", "umask", "local", "getopts", "alias", "unalias", "hash", "jobs", "ulimit"]

/-- How the `echo` of `sh` reads escapes. -/
def shellEchoEscapes : EscapeStyle := ⟨true, true, false⟩

/-- How the `printf` of `sh` reads escapes in its format. -/
def shellPrintfEscapes : EscapeStyle := ⟨false, true, false⟩

/-- How the `printf` of `sh` reads escapes in a `%b` argument. -/
def shellPrintfArgEscapes : EscapeStyle := ⟨true, true, false⟩

/-- The path the shell searches for commands when `PATH` is not set. -/
def defaultSearchPath : String := "/usr/local/sbin:/usr/local/bin:/usr/sbin:/usr/bin:/sbin:/bin"

/-- The field separators: `IFS`, or blank, tab and line end when it is not set. -/
def fieldSeparators : ShellM String := do
  pure ((← lookup "IFS").getD " \t\n")

/-- Read an exit status argument: digits only. -/
def statusArg (text : String) : Option Nat :=
  if !text.isEmpty && text.all Char.isDigit then some text.toNat! else none

/-- A text in single quotes as the shell writes it back: each run of quotes inside it is
written in double quotes between two single-quoted parts. -/
def singleQuoted (s : String) : String :=
  let rec go : Nat → List Char → String
    | 0, _ => ""
    | n + 1, cs =>
      let run := cs.takeWhile (· != '\'')
      let rest := cs.drop run.length
      let quotes := rest.takeWhile (· == '\'')
      let after := rest.drop quotes.length
      let here := "'" ++ String.ofList run ++ "'" ++
        (if quotes.isEmpty then "" else "\"" ++ String.ofList quotes ++ "\"")
      if quotes.isEmpty || after.isEmpty then here else here ++ go n after
  go (s.length + 1) s.toList

/-- `echo`. -/
def echoBuiltin (args : List String) : ShellM Nat := do
  match (← shell).dialect with
  | .dash =>
    let (newline, rest) := match args with
      | "-n" :: more => (false, more)
      | _ => (true, args)
    let (text, stop) := escapeText shellEchoEscapes (" ".intercalate rest)
    write 1 (if stop || !newline then text else text ++ "\n")
    pure 0
  | .bash =>
    let outcome := runTool echoTool ⟨"echo", args, "", [], []⟩ {}
    for (fd, text) in outcome.output do write fd text
    pure 0

/-- `printf`. -/
def printfBuiltin (args : List String) : ShellM Nat := do
  match args with
  | [] =>
    complain "printf: usage: printf format [arg ...]"
    pure 2
  | format :: rest =>
    let f := formatPrintf shellPrintfEscapes shellPrintfArgEscapes format rest
    write 1 f.text
    let mut status := 0
    for (arg, _) in f.badNumbers do
      complain ("printf: " ++ arg ++ ": expected numeric value")
      status := 1
    match f.invalid with
    | some spec =>
      complain ("printf: " ++ spec ++ ": invalid directive")
      pure 1
    | none => pure status

/-- `test` and `[`. -/
def testBuiltin (name : String) (args : List String) : ShellM Nat := do
  let s ← shell
  let t ← files
  let args := if name == "[" then bracketArgs args else .ok args
  match args >>= evalTest t s.cwd with
  | .ok v => pure (if v then 0 else 1)
  | .error e =>
    complain (name ++ ": " ++ e.shellText)
    pure 2

/-- `cd [DIR]`: change the working directory; `-` is the previous one. -/
def cdBuiltin (args : List String) : ShellM Nat := do
  let s ← shell
  let target ← match args with
    | [] => pure ((← lookup "HOME").getD "/")
    | "-" :: _ => pure ((← lookup "OLDPWD").getD "")
    | d :: _ => pure d
  match (← files).lookup s.cwd target with
  | .ok (loc, .directory) =>
    let old ← cwdText
    modifyShell fun s => { s with cwd := loc }
    setVar "OLDPWD" old
    setVar "PWD" (← cwdText)
    if args.head? == some "-" then write 1 ((← cwdText) ++ "\n")
    pure 0
  | result =>
    match s.dialect with
    | .dash =>
      complain ("cd: can't cd to " ++ target)
      pure 2
    | .bash =>
      let reason := match result with
        | .error e => e.reason
        | _ => "Not a directory"
      complain ("cd: " ++ target ++ ": " ++ reason)
      pure 1

/-- `pwd`. -/
def pwdBuiltin : ShellM Nat := do
  write 1 ((← cwdText) ++ "\n")
  pure 0

/-- Split a line into the values of `read`'s variables: fields by the separators, the last
variable taking the rest of the line. -/
def splitForRead (ifs : String) (line : String) (count : Nat) : List String :=
  let isSep (c : Char) := ifs.contains c
  let rec go : Nat → List Char → List String → List String
    | 0, rest, acc => acc ++ [String.ofList rest]
    | n + 1, rest, acc =>
      let rest := rest.dropWhile isSep
      if n == 0 then
        let trimmed := (rest.reverse.dropWhile isSep).reverse
        acc ++ [String.ofList trimmed]
      else
        let field := rest.takeWhile (!isSep ·)
        go n (rest.drop field.length) (acc ++ [String.ofList field])
  if count == 0 then [] else go count line.toList []

/-- `read [-r] NAME…`: read a line of standard input into variables. The status is 1 at the
end of the input. -/
def readBuiltin (args : List String) : ShellM Nat := do
  let (raw, names) := match args with
    | "-r" :: more => (true, more)
    | _ => (false, args)
  let names := if names.isEmpty then ["REPLY"] else names
  let text ← match ← descriptor 0 with
    | some (.reader t) => pure t
    | _ => pure ""
  let cs := text.toList
  let rec takeLine : Nat → List Char → List Char → List Char × List Char × Bool
    | 0, rest, acc => (acc, rest, false)
    | _ + 1, [], acc => (acc, [], false)
    | _ + 1, '\n' :: rest, acc => (acc, rest, true)
    | n + 1, '\\' :: '\n' :: rest, acc => if raw then (acc ++ ['\\'], rest, true) else takeLine n rest acc
    | n + 1, '\\' :: c :: rest, acc => if raw then takeLine n (c :: rest) (acc ++ ['\\']) else takeLine n rest (acc ++ [c])
    | n + 1, c :: rest, acc => takeLine n rest (acc ++ [c])
  let (line, rest, complete) := takeLine (cs.length + 1) cs []
  setDescriptor 0 (.reader (String.ofList rest))
  let ifs ← fieldSeparators
  let values := splitForRead ifs (String.ofList line) names.length
  let ro := (← shell).readonly
  match (names.zip values).find? (fun (n, _) => ro.contains n) with
  | some (n, _) =>
    for (m, v) in (names.zip values).takeWhile (·.1 != n) do setVar m v
    complain ("read: " ++ n ++ ": is read only")
    pure 2
  | none =>
    for (n, v) in names.zip values do setVar n v
    pure (if complete then 0 else 1)

/-- The options `set -o` knows by name besides those it acts on; they change nothing here. -/
def quietOptions : List String :=
  ["ignoreeof", "interactive", "monitor", "noexec", "stdin", "verbose", "vi", "emacs",
    "noclobber", "allexport", "notify", "nolog", "debug"]

/-- `set -o NAME` or `set +o NAME`. `pipefail` is known to `bash` only. A name the shell does
not know ends `sh`, as a mistake in a special builtin does; `bash` complains and goes on, and
the status is then 2. -/
def setNamedOption (on : Bool) (name : String) : ShellM Bool := do
  let s ← shell
  match name with
  | "errexit" => modifyShell fun s => { s with errexit := on }; pure true
  | "nounset" => modifyShell fun s => { s with nounset := on }; pure true
  | "xtrace" => modifyShell fun s => { s with xtrace := on }; pure true
  | "noglob" => modifyShell fun s => { s with noglob := on }; pure true
  | _ =>
    if quietOptions.contains name then pure true
    else if name == "pipefail" && s.dialect == .bash then
      modifyShell fun s => { s with pipefail := on }
      pure true
    else
      match s.dialect with
      | .dash =>
        complain ("set: Illegal option -o " ++ name)
        throw (.exit 2)
      | .bash =>
        complain ("set: " ++ name ++ ": invalid option name")
        pure false

/-- `set`: options and positional parameters. -/
def setBuiltin (args : List String) : ShellM Nat := do
  let rec go : Nat → List String → ShellM Nat
    | 0, _ => pure 0
    | _ + 1, [] => pure 0
    | n + 1, a :: rest =>
      if a == "--" then do
        modifyShell fun s => { s with positional := rest }
        pure 0
      else if (a.startsWith "-" || a.startsWith "+") && a.length > 1 then do
        let on := a.startsWith "-"
        let mut rest := rest
        let mut fine := true
        for c in a.toList.drop 1 do
          match c with
          | 'e' => modifyShell fun s => { s with errexit := on }
          | 'u' => modifyShell fun s => { s with nounset := on }
          | 'x' => modifyShell fun s => { s with xtrace := on }
          | 'f' => modifyShell fun s => { s with noglob := on }
          | 'o' =>
            match rest with
            | name :: more =>
              rest := more
              fine := (← setNamedOption on name) && fine
            | [] => pure ()
          | _ => pure ()
        if fine then go n rest else pure 2
      else do
        modifyShell fun s => { s with positional := a :: rest }
        pure 0
  if args.isEmpty then
    let s ← shell
    let sorted := s.vars.mergeSort fun a b => decide (a.1 ≤ b.1)
    for (k, v) in sorted do write 1 (k ++ "=" ++ singleQuoted v ++ "\n")
    pure 0
  else go (args.length + 1) args

/-- `shift [N]`. -/
def shiftBuiltin (args : List String) : ShellM Nat := do
  let n := (args.head?.bind statusArg).getD 1
  let s ← shell
  if n > s.positional.length then
    complain "shift: can't shift that many"
    throw (.exit 2)
  modifyShell fun s => { s with positional := s.positional.drop n }
  pure 0

/-- The operands of `export`, `readonly` and `local`: each a name, with the value to assign
when it is written `NAME=VALUE`. A name that is not one ends the shell. -/
def declarations (who : String) (args : List String) : ShellM (List (String × Option String)) := do
  let mut out := #[]
  for a in args.filter (!·.startsWith "-") do
    let name := String.ofList (a.toList.takeWhile (· != '='))
    if !isName name then
      complain (who ++ ": " ++ name ++ ": bad variable name")
      throw (.exit 2)
    out := out.push (name, if a.contains '=' then some (Text.dropChars a (name.length + 1)) else none)
  pure out.toList

/-- The variables with a mark, in name order, as `export` and `readonly` list them: set ones
with their value quoted, others by name alone. -/
def listMarked (who : String) (marked : List String) : ShellM Nat := do
  let s ← shell
  for n in marked.mergeSort (fun a b => decide (a ≤ b)) do
    match (s.vars.find? (·.1 == n)).map (·.2) with
    | some v => write 1 (who ++ " " ++ n ++ "=" ++ singleQuoted v ++ "\n")
    | none => write 1 (who ++ " " ++ n ++ "\n")
  pure 0

/-- `export [NAME[=VALUE]…]`: mark variables for the programs the shell starts, assigning
those given a value; without operands, list the marked ones. -/
def exportBuiltin (args : List String) : ShellM Nat := do
  if (args.filter (· != "-p")).isEmpty then listMarked "export" (← shell).exported
  else
    for (name, value) in ← declarations "export" args do
      if let some v := value then assign "export: " name v
      exportVar name
    pure 0

/-- `readonly [NAME[=VALUE]…]`: mark variables so that nothing assigns or removes them again,
assigning those given a value first; without operands, list the marked ones. -/
def readonlyBuiltin (args : List String) : ShellM Nat := do
  if (args.filter (· != "-p")).isEmpty then listMarked "readonly" (← shell).readonly
  else
    for (name, value) in ← declarations "readonly" args do
      if let some v := value then assign "readonly: " name v
      modifyShell fun s =>
        { s with readonly := if s.readonly.contains name then s.readonly else s.readonly ++ [name] }
    pure 0

/-- `local NAME[=VALUE]…`: make variables local to the running function. Each keeps its value
until assigned; the function's return gives back the value and export mark it had before. -/
def localBuiltin (args : List String) : ShellM Nat := do
  match (← shell).frames with
  | [] =>
    complain "local: not in a function"
    throw (.exit 2)
  | _ :: _ =>
    for (name, value) in ← declarations "local" args do
      let s ← shell
      match s.frames with
      | frame :: outer =>
        if !(frame.any (·.1 == name)) then
          let saved := (name, (s.vars.find? (·.1 == name)).map (·.2), s.exported.contains name)
          modifyShell fun s => { s with frames := (saved :: frame) :: outer }
      | [] => pure ()
      if let some v := value then assign "local: " name v
    pure 0

/-- Give back the variables the innermost running function made local. -/
def restoreLocals : ShellM Unit := do
  match (← shell).frames with
  | frame :: outer =>
    modifyShell fun s => { s with frames := outer }
    for (name, value, exported) in frame do
      match value with
      | some v => setVar name v
      | none => unsetVar name
      modifyShell fun s =>
        { s with exported := if exported then (if s.exported.contains name then s.exported
            else s.exported ++ [name]) else s.exported.filter (· != name) }
  | [] => pure ()

/-- `unset [-fv] NAME…`. A read-only variable ends the shell. -/
def unsetBuiltin (args : List String) : ShellM Nat := do
  let functions := args.head? == some "-f"
  for a in args.filter (!·.startsWith "-") do
    if functions then modifyShell fun s => { s with functions := s.functions.filter (·.1 != a) }
    else if (← shell).readonly.contains a then
      complain ("unset: " ++ a ++ ": is read only")
      throw (.exit 2)
    else unsetVar a
  pure 0

/-- `exit [N]`. -/
def exitBuiltin (args : List String) : ShellM Nat := do
  match args with
  | [] => throw (.exit (← shell).status)
  | a :: _ =>
    match statusArg a with
    | some n => throw (.exit (n % 256))
    | none =>
      complain ("exit: Illegal number: " ++ a)
      throw (.exit 2)

/-- `return`, `break` and `continue`: a count or status argument. -/
def jumpBuiltin (name : String) (args : List String) : ShellM Nat := do
  let n ← match args with
    | [] => pure none
    | a :: _ =>
      match statusArg a with
      | some n => pure (some n)
      | none =>
        complain (name ++ ": Illegal number: " ++ a)
        throw (.exit 2)
  match name with
  | "return" => throw (.returned ((n.getD (← shell).status) % 256))
  | "break" => throw (.breakOut (max 1 (n.getD 1)))
  | _ => throw (.continueOn (max 1 (n.getD 1)))

/-- The name `trap` gives a condition: `EXIT` for 0, else the signal's name. -/
def trapName (n : Nat) : String :=
  if n == 0 then "EXIT" else ((signalNames.find? (·.1 == n)).map (·.2)).getD (toString n)

/-- A condition as `trap` reads it: a number below 65, or `EXIT` or a signal's name without
`SIG`, in any case. -/
def trapCondition (text : String) : Option Nat :=
  if !text.isEmpty && text.all Char.isDigit then
    if text.toNat! < 65 then some text.toNat! else none
  else if text.toUpper == "EXIT" then some 0
  else (signalNames.find? (·.2 == text.toUpper)).map (·.1)

/-- `trap [ACTION] CONDITION…`: set the action of conditions, `-` resetting them; without
operands, list the actions set. A first operand that is a number is a condition, and the
conditions are reset. A condition that names no signal ends the shell, as a mistake in a
special builtin does. -/
def trapBuiltin (args : List String) : ShellM Nat := do
  match args with
  | [] =>
    let set := (← shell).traps.mergeSort fun a b => decide (a.1 ≤ b.1)
    for (n, action) in set do
      write 1 ("trap -- " ++ singleQuoted action ++ " " ++ trapName n ++ "\n")
    pure 0
  | first :: rest =>
    let numeric := !first.isEmpty && first.all Char.isDigit && first.toNat! < 65
    let (action, conditions) :=
      if rest.isEmpty || numeric then ((none : Option String), args) else (some first, rest)
    let action := action.filter (· != "-")
    let rec go : Nat → List String → ShellM Nat
      | 0, _ => pure 0
      | _ + 1, [] => pure 0
      | n + 1, c :: more => do
        match trapCondition c with
        | none =>
          complain ("trap: " ++ c ++ ": bad trap")
          throw (.exit 2)
        | some k =>
          modifyShell fun s =>
            { s with traps := s.traps.filter (·.1 != k) ++ (action.map fun a => (k, a)).toList }
          go n more
    go (conditions.length + 1) conditions

/-- `umask`. -/
def umaskBuiltin (args : List String) : ShellM Nat := do
  if args.isEmpty then write 1 "0022\n"
  pure 0

/-- `times`. -/
def timesBuiltin : ShellM Nat := do
  write 1 "0m0.000000s 0m0.000000s\n0m0.000000s 0m0.000000s\n"
  pure 0

end Shell

end ReleaseBuild
