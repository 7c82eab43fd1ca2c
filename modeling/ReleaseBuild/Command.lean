/-!
# Tool commands

An external tool is run as a program with a list of arguments and, optionally, a working
directory. Some arguments are secrets, such as a certificate password: they are passed to the
tool unchanged but never shown. The shown form of a command is the program followed by its
arguments, joined by single spaces, with each secret written as `****`.

A finished tool has an exit status: an exit code, or none when the tool was stopped by a
signal. Only exit code 0 counts as success.
-/

namespace ReleaseBuild

/-- One argument of a command. -/
structure Argument where
  value : String
  secret : Bool := false
  deriving DecidableEq, Repr

/-- A program to run with its arguments and working directory. -/
structure Invocation where
  program : String
  args : List Argument := []
  cwd : Option String := none
  deriving DecidableEq, Repr

namespace Invocation

/-- The text shown in place of a secret argument. -/
def mask : String := "****"

/-- A command with no arguments. -/
def ofProgram (program : String) : Invocation := ⟨program, [], none⟩

/-- Add a plain argument. -/
def arg (c : Invocation) (value : String) : Invocation :=
  { c with args := c.args ++ [⟨value, false⟩] }

/-- Add an argument that is passed on but never shown. -/
def secretArg (c : Invocation) (value : String) : Invocation :=
  { c with args := c.args ++ [⟨value, true⟩] }

/-- Add plain arguments in order. -/
def withArgs (c : Invocation) (values : List String) : Invocation :=
  { c with args := c.args ++ values.map fun v => ⟨v, false⟩ }

/-- Set the working directory. -/
def inDir (c : Invocation) (dir : String) : Invocation := { c with cwd := some dir }

/-- The argument values as passed to the tool. -/
def argValues (c : Invocation) : List String := c.args.map (·.value)

/-- How an argument is shown. -/
def Argument.shown (a : Argument) : String := if a.secret then mask else a.value

/-- The shown command: program and arguments joined by single spaces, secrets masked. -/
def display (c : Invocation) : String :=
  " ".intercalate (c.program :: c.args.map Argument.shown)

end Invocation

/-- How a tool finished: its exit code, or none when it was stopped by a signal. -/
structure ToolStatus where
  code : Option Int
  deriving DecidableEq, Repr

namespace ToolStatus

/-- Exit code 0 and nothing else is success. -/
def success (s : ToolStatus) : Bool := s.code == some 0

/-- `error code N`, or `no exit code` for a tool stopped by a signal. -/
def display (s : ToolStatus) : String :=
  match s.code with
  | some c => "error code " ++ toString c
  | none => "no exit code"

end ToolStatus

end ReleaseBuild
