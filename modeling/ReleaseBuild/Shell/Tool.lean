import ReleaseBuild.Host.FileTree
import ReleaseBuild.Text
/-!
# Programs of the system

Besides the shell, a release's scripts call the small programs every system has: `mkdir`,
`ls`, `sed`, `cat` and the like. Each is modelled as a function of what it is started with
(its name, its arguments, its standard input, its environment and its working directory)
and the file tree, to what it leaves behind: an exit status, the text it wrote to standard
output and standard error in order, and the file tree.

Their messages are those of the usual implementations in the C locale:
`mkdir: cannot create directory 'a/b': No such file or directory`.
-/

namespace ReleaseBuild

/-- The text of a failure as C programs print it, without the error number. -/
def IoError.reason : IoError → String
  | .os code => errnoDescription code
  | .custom _ m => m

namespace Shell

/-- The device that swallows what is written to it and reads as empty. -/
def nullDevice : String := "/dev/null"

/-- What a program is started with. -/
structure ToolRun where
  /-- The name the program was started by, as its messages show it. -/
  program : String
  args : List String
  input : String := ""
  env : List (String × String) := []
  cwd : Location := []
  deriving Repr

/-- What a program leaves behind: its status, what it wrote to descriptors 1 and 2 in order,
and the file tree. -/
structure ToolOutcome where
  status : Nat := 0
  output : Array (Nat × String) := #[]
  files : FileTree
  deriving Repr

/-- A program at work. -/
abbrev ToolM := ReaderT ToolRun (StateM ToolOutcome)

/-- A program of the system. -/
abbrev Tool := ToolM Unit

namespace ToolM

/-- Write to standard output. -/
def out (text : String) : ToolM Unit :=
  if text.isEmpty then pure () else modify fun o => { o with output := o.output.push (1, text) }

/-- Write to standard error. -/
def err (text : String) : ToolM Unit :=
  if text.isEmpty then pure () else modify fun o => { o with output := o.output.push (2, text) }

/-- Set the exit status. -/
def setStatus (n : Nat) : ToolM Unit := modify fun o => { o with status := n }

/-- Print a message prefixed with the program's name, and set the status. -/
def complainWith (status : Nat) (message : String) : ToolM Unit := do
  err ((← read).program ++ ": " ++ message ++ "\n")
  setStatus status

/-- Print a message prefixed with the program's name, and set the status to 1. -/
def complain (message : String) : ToolM Unit := complainWith 1 message

/-- The file tree. -/
def files : ToolM FileTree := do pure (← get).files

/-- Replace the file tree. -/
def setFiles (t : FileTree) : ToolM Unit := modify fun o => { o with files := t }

/-- The arguments. -/
def args : ToolM (List String) := do pure (← read).args

/-- The working directory. -/
def cwd : ToolM Location := do pure (← read).cwd

/-- The value of an environment variable. -/
def getEnv (name : String) : ToolM (Option String) := do
  pure (((← read).env.find? (·.1 == name)).map (·.2))

/-- The text of a file operand, `-` meaning standard input; the error otherwise. -/
def readOperand (path : String) : ToolM (Except IoError String) := do
  if path == "-" then pure (.ok (← read).input)
  else if path == nullDevice then pure (.ok "")
  else
    match (← files).lookup (← cwd) path with
    | .ok (_, .file content _) => pure (.ok content)
    | .ok (_, .directory) => pure (.error .isADirectory)
    | .error e => pure (.error e)

end ToolM

/-- Run a program. -/
def runTool (t : Tool) (run : ToolRun) (files : FileTree) : ToolOutcome :=
  (t.run run |>.run { files := files }).2

/-- A file name quoted the way messages quote it: in single quotes, or in double quotes when
it holds a single quote. -/
def quoteName (name : String) : String :=
  if name.contains '\'' then "\"" ++ name ++ "\"" else "'" ++ name ++ "'"

/-- The lines of a text, without their line ends; a last line without a line end counts. -/
def linesOf (text : String) : List String :=
  let parts := text.splitOn "\n"
  if text.endsWith "\n" then parts.dropLast else parts

/-- Lines joined with a line end after each. -/
def unlines (lines : List String) : String := String.join (lines.map (· ++ "\n"))

/-- Split options from operands: arguments starting with `-` (not `-` itself) up to `--` or
the first operand are options. Gives the option letters and the operands. -/
def splitOptions (args : List String) : List Char × List String :=
  let rec go : List String → List Char → List Char × List String
    | [], acc => (acc, [])
    | "--" :: rest, acc => (acc, rest)
    | a :: rest, acc =>
      if a.startsWith "-" && a.length > 1 then go rest (acc ++ (a.toList.drop 1))
      else (acc, a :: rest)
  go args []

/-- The last name of a path, as `basename` prints it. -/
def baseName (path : String) : String :=
  let trimmed := String.ofList ((path.toList.reverse.dropWhile (· == '/')).reverse)
  if trimmed.isEmpty then (if path.isEmpty then "" else "/")
  else ((trimmed.splitOn "/").getLast?).getD trimmed

/-- The directory part of a path, as `dirname` prints it. -/
def dirName (path : String) : String :=
  let cs := (path.toList.reverse.dropWhile (· == '/')).reverse
  if cs.isEmpty then (if path.isEmpty then "." else "/")
  else
    let dir := (cs.reverse.dropWhile (· != '/')).reverse
    if dir.isEmpty then "."
    else
      let dir := (dir.reverse.dropWhile (· == '/')).reverse
      if dir.isEmpty then "/" else String.ofList dir

/-- The value of an octal digit. -/
def octalDigit? (c : Char) : Option Nat :=
  if '0' ≤ c && c ≤ '7' then some (c.toNat - 48) else none

/-- The value of a hexadecimal digit. -/
def hexDigit? (c : Char) : Option Nat :=
  if c.isDigit then some (c.toNat - 48)
  else if 'a' ≤ c && c ≤ 'f' then some (c.toNat - 87)
  else if 'A' ≤ c && c ≤ 'F' then some (c.toNat - 55)
  else none

/-- Up to `n` leading digits of a base: their value and the rest. -/
def leadingDigits (digit : Char → Option Nat) (base : Nat) : Nat → List Char → Nat → Nat × Nat × List Char
  | 0, cs, acc => (acc, 0, cs)
  | n + 1, cs, acc =>
    match cs with
    | c :: rest =>
      match digit c with
      | some d =>
        let (v, k, more) := leadingDigits digit base n rest (base * acc + d)
        (v, k + 1, more)
      | none => (acc, 0, cs)
    | [] => (acc, 0, cs)

/-- Which escapes a program reads: `\0nnn` (a zero, then up to three octal digits), `\nnn`
(one to three octal digits), and `\xHH`. -/
structure EscapeStyle where
  zeroOctal : Bool
  plainOctal : Bool
  hex : Bool
  deriving DecidableEq, Repr

/-- Read one escape after its backslash: the characters it stands for, whether it is `\c`
(stop all output), and the text after it. An unknown escape stands for itself. -/
def escapeStep (style : EscapeStyle) (rest : List Char) : List Char × Bool × List Char :=
  let octal (digits : List Char) :=
    let (v, _, after) := leadingDigits octalDigit? 8 3 digits 0
    ([Char.ofNat (v % 256)], false, after)
  match rest with
  | 'a' :: more => ([Char.ofNat 7], false, more)
  | 'b' :: more => ([Char.ofNat 8], false, more)
  | 'c' :: more => ([], true, more)
  | 'e' :: more => ([Char.ofNat 27], false, more)
  | 'f' :: more => ([Char.ofNat 12], false, more)
  | 'n' :: more => (['\n'], false, more)
  | 'r' :: more => (['\r'], false, more)
  | 't' :: more => (['\t'], false, more)
  | 'v' :: more => ([Char.ofNat 11], false, more)
  | '\\' :: more => (['\\'], false, more)
  | 'x' :: more =>
    let (v, k, after) := leadingDigits hexDigit? 16 2 more 0
    if style.hex && k != 0 then ([Char.ofNat v], false, after) else (['\\', 'x'], false, more)
  | '0' :: more =>
    if style.zeroOctal then octal more
    else if style.plainOctal then octal rest
    else (['\\', '0'], false, more)
  | c :: more =>
    if style.plainOctal && (octalDigit? c).isSome then octal rest else (['\\', c], false, more)
  | [] => (['\\'], false, [])

/-- Interpret backslash escapes as `echo` and `printf` do: the text, and whether `\c` asked to
stop all output. -/
def expandEscapes (style : EscapeStyle) : Nat → List Char → List Char × Bool
  | 0, _ => ([], false)
  | _ + 1, [] => ([], false)
  | fuel + 1, '\\' :: rest =>
    let (cs, stop, after) := escapeStep style rest
    if stop then (cs, true)
    else
      let (tail, stop') := expandEscapes style fuel after
      (cs ++ tail, stop')
  | fuel + 1, c :: rest =>
    let (tail, stop) := expandEscapes style fuel rest
    (c :: tail, stop)

/-- Interpret the escapes of a text by a style. -/
def escapeText (style : EscapeStyle) (text : String) : String × Bool :=
  let (cs, stop) := expandEscapes style (text.length + 1) text.toList
  (String.ofList cs, stop)

end Shell

end ReleaseBuild
