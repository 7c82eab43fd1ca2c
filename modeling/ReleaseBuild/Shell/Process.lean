import ReleaseBuild.Machine
import ReleaseBuild.Shell.Parser
/-!
# Processes and the world they share

Programs started by a release share one world: the file tree, the console, and a buffer that
collects what is written into a pipe or a command substitution. Each shell process has its
own state: variables (some exported to the programs it starts), functions, positional
parameters, the last exit status, its working directory, and its open file descriptors.

A descriptor reads a text (standard input, a file, a here-document, the output of the previous
stage of a pipeline) or writes to a sink: the console's standard output or standard error, a
file (every write appends to it, after the shell truncated it when it opened it), the capture
buffer, or nowhere.

Running shell code can end early: `exit`, a signal, `break`, `continue` and `return` leave the
commands in between; they travel as the error of the shell's monad, which sits on top of the
state, so that changes made before the jump are kept.
-/

namespace ReleaseBuild

namespace Shell

/-- Where an output descriptor writes. -/
inductive Sink where
  | stdout
  | stderr
  | file (loc : Location)
  | capture
  | discard
  deriving DecidableEq, Repr

/-- An open file descriptor: a text to read, or a sink to write to. -/
inductive Descriptor where
  | reader (text : String)
  | writer (sink : Sink)
  deriving DecidableEq, Repr

/-- How a process ended: with an exit code, or stopped by a signal. -/
inductive Ending where
  | exited (code : Nat)
  | signaled (signal : Nat)
  deriving DecidableEq, Repr

namespace Ending

/-- The exit status a shell sees: the code, or 128 plus the signal. -/
def status : Ending → Nat
  | exited c => c
  | signaled s => 128 + s

end Ending

/-- What every process writes to and reads from: the file tree, the console, the capture
buffer, the next process number, and the shell processes running, innermost first. -/
structure World where
  files : FileTree
  console : Array Emission := #[]
  captured : String := ""
  nextPid : Nat := 4200
  running : List Nat := []
  deriving Repr

/-- The two shells a script may ask for: they differ in some builtins and in how they word
their messages. -/
inductive Dialect where
  | dash
  | bash
  deriving DecidableEq, Repr

/-- The state of one shell process. -/
structure ShellState where
  vars : List (String × String) := []
  exported : List String := []
  functions : List (String × Command) := []
  positional : List String := []
  name : String := "sh"
  status : Nat := 0
  cwd : Location := []
  fds : List (Nat × Descriptor) := [(0, .reader ""), (1, .writer .stdout), (2, .writer .stderr)]
  pid : Nat := 4100
  line : Nat := 0
  dialect : Dialect := .dash
  commandString : Bool := false
  errexit : Bool := false
  nounset : Bool := false
  xtrace : Bool := false
  noglob : Bool := false
  /-- Whether a pipeline fails with its rightmost failing stage, not only its last. -/
  pipefail : Bool := false
  lastBackground : Option Nat := none
  substitutionStatus : Option Nat := none
  /-- The actions set by `trap`, by condition: 0 is the shell's exit, others are signals. An
  empty action ignores the signal. -/
  traps : List (Nat × String) := []
  /-- The actions of trapped signals that arrived during the current command. -/
  pendingTraps : List String := []
  /-- The variables marked read-only. -/
  readonly : List String := []
  /-- For each function running, innermost first, the variables it made local, with the value
  and export mark each had before. -/
  frames : List (List (String × Option String × Bool)) := []
  deriving Repr, Inhabited

/-- A shell process in its world. -/
structure Session where
  shell : ShellState
  world : World
  deriving Repr

/-- How running shell code stops before its end. -/
inductive Flow where
  /-- The process exits with a status. -/
  | exit (code : Nat)
  /-- The process with this number was stopped by a signal. -/
  | killed (pid signal : Nat)
  /-- `break` out of this many loops. -/
  | breakOut (levels : Nat)
  /-- `continue` this many loops out. -/
  | continueOn (levels : Nat)
  /-- `return` from a function with a status. -/
  | returned (code : Nat)
  /-- The run took more steps than it was given. -/
  | exhausted
  deriving DecidableEq, Repr

/-- Shell code: it may stop early, and it changes the session either way. -/
abbrev ShellM := ExceptT Flow (StateM Session)

namespace ShellM

/-- The state of the running shell. -/
def shell : ShellM ShellState := do pure (← get).shell

/-- Change the state of the running shell. -/
def modifyShell (f : ShellState → ShellState) : ShellM Unit :=
  modify fun s => { s with shell := f s.shell }

/-- The world. -/
def world : ShellM World := do pure (← get).world

/-- Change the world. -/
def modifyWorld (f : World → World) : ShellM Unit :=
  modify fun s => { s with world := f s.world }

/-- The file tree. -/
def files : ShellM FileTree := do pure (← world).files

/-- Replace the file tree. -/
def setFiles (t : FileTree) : ShellM Unit := modifyWorld fun w => { w with files := t }

/-- A fresh process number. -/
def freshPid : ShellM Nat := do
  let w ← world
  modifyWorld fun w => { w with nextPid := w.nextPid + 1 }
  pure w.nextPid

/-- Write text to a sink. A file that is gone swallows the text. -/
def writeSink (sink : Sink) (text : String) : ShellM Unit :=
  if text.isEmpty then pure ()
  else
    match sink with
    | .stdout => modifyWorld fun w => { w with console := w.console.push (.out text) }
    | .stderr => modifyWorld fun w => { w with console := w.console.push (.err text) }
    | .file loc => modifyWorld fun w =>
      match w.files.get? loc with
      | some (.file old _) => { w with files := w.files.setContent loc (old ++ text) }
      | _ => w
    | .capture => modifyWorld fun w => { w with captured := w.captured ++ text }
    | .discard => pure ()

/-- The descriptor open at a number. -/
def descriptor (fd : Nat) : ShellM (Option Descriptor) := do
  pure (((← shell).fds.find? (·.1 == fd)).map (·.2))

/-- Write text to a descriptor; a closed or reading descriptor drops it. -/
def write (fd : Nat) (text : String) : ShellM Unit := do
  match ← descriptor fd with
  | some (.writer sink) => writeSink sink text
  | _ => pure ()

/-- Open a descriptor at a number, replacing what was there. -/
def setDescriptor (fd : Nat) (d : Descriptor) : ShellM Unit :=
  modifyShell fun s => { s with fds := (fd, d) :: s.fds.filter (·.1 != fd) }

/-- Close a descriptor. -/
def closeDescriptor (fd : Nat) : ShellM Unit :=
  modifyShell fun s => { s with fds := s.fds.filter (·.1 != fd) }

/-- The text waiting on standard input, consumed. -/
def takeInput : ShellM String := do
  match ← descriptor 0 with
  | some (.reader text) => setDescriptor 0 (.reader ""); pure text
  | _ => pure ""

/-- The prefix of a shell's messages: its name and, in a script, the line. -/
def messagePrefix : ShellM String := do
  let s ← shell
  match s.dialect with
  | .dash => pure (s.name ++ ": " ++ toString s.line ++ ": ")
  | .bash => pure (s.name ++ ": line " ++ toString s.line ++ ": ")

/-- Print a message of the shell on standard error. -/
def complain (text : String) : ShellM Unit := do
  write 2 ((← messagePrefix) ++ text ++ "\n")

/-- The value of a variable. -/
def lookup (name : String) : ShellM (Option String) := do
  pure (((← shell).vars.find? (·.1 == name)).map (·.2))

/-- Set a variable. -/
def setVar (name value : String) : ShellM Unit :=
  modifyShell fun s =>
    { s with vars := if s.vars.any (·.1 == name) then s.vars.map fun (n, v) => if n == name then (n, value) else (n, v)
        else s.vars ++ [(name, value)] }

/-- Set a variable as a command assigns it: a read-only variable stops the shell with status
2, after a message that names the builtin assigning it, if any (`who` is that name and a colon). -/
def assign (who name value : String) : ShellM Unit := do
  if (← shell).readonly.contains name then
    complain (who ++ name ++ ": is read only")
    throw (.exit 2)
  setVar name value

/-- Remove a variable. -/
def unsetVar (name : String) : ShellM Unit :=
  modifyShell fun s => { s with vars := s.vars.filter (·.1 != name), exported := s.exported.filter (· != name) }

/-- Mark a variable for export. -/
def exportVar (name : String) : ShellM Unit :=
  modifyShell fun s => { s with exported := if s.exported.contains name then s.exported else s.exported ++ [name] }

/-- The environment the shell gives the programs it starts: its exported variables that are
set. -/
def environment : ShellM (List (String × String)) := do
  let s ← shell
  pure (s.vars.filter fun (n, _) => s.exported.contains n)

/-- The working directory as a path text. -/
def cwdText : ShellM String := do
  let s ← shell
  pure ("/" ++ "/".intercalate s.cwd)

/-- Stop the run: this many steps were not enough. -/
def outOfFuel {α : Type} : ShellM α := throw .exhausted

end ShellM

/-- The name of a signal without its `SIG` prefix, by number. -/
def signalNames : List (Nat × String) :=
  [(1, "HUP"), (2, "INT"), (3, "QUIT"), (4, "ILL"), (5, "TRAP"), (6, "ABRT"), (7, "BUS"),
    (8, "FPE"), (9, "KILL"), (10, "USR1"), (11, "SEGV"), (12, "USR2"), (13, "PIPE"),
    (14, "ALRM"), (15, "TERM"), (17, "CHLD"), (18, "CONT"), (19, "STOP"), (20, "TSTP")]

/-- The description the shell prints when a program it waits for is stopped by a signal;
none for an interrupt or a broken pipe. -/
def signalDescription (signal : Nat) : Option String :=
  match signal with
  | 1 => some "Hangup"
  | 3 => some "Quit"
  | 4 => some "Illegal instruction"
  | 5 => some "Trace/breakpoint trap"
  | 6 => some "Aborted"
  | 7 => some "Bus error"
  | 8 => some "Floating point exception"
  | 9 => some "Killed"
  | 10 => some "User defined signal 1"
  | 11 => some "Segmentation fault"
  | 12 => some "User defined signal 2"
  | 14 => some "Alarm clock"
  | 15 => some "Terminated"
  | _ => none

/-- Read a signal as `kill` takes it: a number or a name, with or without `SIG`. -/
def parseSignal (text : String) : Option Nat :=
  if !text.isEmpty && text.all Char.isDigit then some text.toNat!
  else
    let upper := text.toUpper
    let name := (Text.stripPrefix? upper "SIG").getD upper
    (signalNames.find? (·.2 == name)).map (·.1)

end Shell

end ReleaseBuild
