import ReleaseBuild.Configuration
/-!
# Options of the command line

The command `hone-build` takes options only, no positional arguments. Each option has a short
name, a long name or both; most take a value, the rest are flags:

| option                    | value    | default    |
|---------------------------|----------|------------|
| `-s`, `--stage`           | STAGE    | `a`        |
| `-o`, `--output`          | DIR      |            |
| `-v`                      | VERSION  |            |
| `-d`, `--debug`           |          |            |
| `-n`, `--no-sign`         |          |            |
| `-c`, `--cert-file`       | FILE     |            |
| `-p`, `--cert-pass`       | PASSWORD | `changeit` |
| `--script-dir`            | DIR      | from `HONE_SCRIPT_DIR` |
| `--verbose`               |          |            |
| `-h`, `--help`            |          |            |
| `-V`, `--version`         |          |            |

This module holds the table, how an option is named in messages (`--stage <STAGE>`, `-v
<VERSION>`, `--debug`), the usage line and the help page.
-/

namespace ReleaseBuild

/-- The name of the program, as messages show it. -/
def programName : String := "hone-build"

/-- The version of the program. -/
def programVersion : String := "0.1.0"

/-- The one-line description of the program. -/
def programAbout : String := "Release-build orchestrator for the Hone packet-process correlator"

/-- The environment variable that gives the script directory. -/
def scriptDirVariable : String := "HONE_SCRIPT_DIR"

/-- An option of the command line. -/
inductive CliOption where
  | stage
  | output
  | version
  | debug
  | noSign
  | certFile
  | certPass
  | scriptDir
  | verbose
  | help
  | showVersion
  deriving DecidableEq, Repr

namespace CliOption

/-- Every option, in the order the help page lists them. -/
def all : List CliOption :=
  [stage, output, version, debug, noSign, certFile, certPass, scriptDir, verbose, help,
    showVersion]

/-- The short name. -/
def short? : CliOption → Option Char
  | stage => some 's'
  | output => some 'o'
  | version => some 'v'
  | debug => some 'd'
  | noSign => some 'n'
  | certFile => some 'c'
  | certPass => some 'p'
  | scriptDir => none
  | verbose => none
  | help => some 'h'
  | showVersion => some 'V'

/-- The long name, without its dashes. -/
def long? : CliOption → Option String
  | stage => some "stage"
  | output => some "output"
  | version => none
  | debug => some "debug"
  | noSign => some "no-sign"
  | certFile => some "cert-file"
  | certPass => some "cert-pass"
  | scriptDir => some "script-dir"
  | verbose => some "verbose"
  | help => some "help"
  | showVersion => some "version"

/-- The name of the value an option takes; flags take none. -/
def valueName? : CliOption → Option String
  | stage => some "STAGE"
  | output => some "DIR"
  | version => some "VERSION"
  | certFile => some "FILE"
  | certPass => some "PASSWORD"
  | scriptDir => some "DIR"
  | _ => none

/-- Whether the option takes a value. -/
def takesValue (o : CliOption) : Bool := o.valueName?.isSome

/-- Whether the value is a path, which may not be empty. -/
def isPath : CliOption → Bool
  | output | certFile | scriptDir => true
  | _ => false

/-- The value an option has when it is not given. -/
def default? : CliOption → Option String
  | stage => some "a"
  | certPass => some defaultCertificatePassword
  | _ => none

/-- The description on the help page. -/
def description : CliOption → String
  | stage => "Stages to run, any of `a`, `b` and `i`"
  | output => "Output directory (defaults to the script directory)"
  | version => "Release version, `major.minor[.build]`"
  | debug => "Build checked (debug) binaries"
  | noSign => "Do not sign drivers or the installer"
  | certFile => "Code-signing certificate"
  | certPass => "Code-signing certificate password"
  | scriptDir => "Directory holding the build helper, installer sources and license files"
  | verbose => "Enable verbose output"
  | help => "Print help"
  | showVersion => "Print version"

/-- The option with a short name. -/
def ofShort? (c : Char) : Option CliOption := all.find? (·.short? == some c)

/-- The option with a long name. -/
def ofLong? (name : String) : Option CliOption := all.find? (·.long? == some name)

/-- The long names, in the order the parser knows them. -/
def longNames : List String := all.filterMap long?

/-- The value part of the option's name: ` <NAME>`, or nothing for a flag. -/
def valueSuffix (o : CliOption) : String :=
  match o.valueName? with
  | some n => " <" ++ n ++ ">"
  | none => ""

/-- How messages name the option: by its long name when it has one, with its value. -/
def display (o : CliOption) : String :=
  match o.long?, o.short? with
  | some l, _ => "--" ++ l ++ o.valueSuffix
  | none, some s => "-" ++ s.toString ++ o.valueSuffix
  | none, none => o.valueSuffix

/-- The option's column on the help page: both names, or four blanks for a missing short
one. -/
def spec (o : CliOption) : String :=
  let short := match o.short?, o.long? with
    | some s, some _ => "-" ++ s.toString ++ ", "
    | some s, none => "-" ++ s.toString
    | none, _ => "    "
  let long := match o.long? with
    | some l => "--" ++ l
    | none => ""
  short ++ long ++ o.valueSuffix

/-- The notes after a description: the default, or the environment variable and its current
value. -/
def notes (o : CliOption) (scriptDirEnv : Option String) : String :=
  match o with
  | scriptDir => " [env: " ++ scriptDirVariable ++ "=" ++ scriptDirEnv.getD "" ++ "]"
  | _ =>
    match o.default? with
    | some d => " [default: " ++ d ++ "]"
    | none => ""

end CliOption

/-- The usage line: the program with the options given so far, each named once in the order
they were first given, or `[OPTIONS]` when none are named. -/
def usageLine (used : List CliOption) : String :=
  if used.isEmpty then programName ++ " [OPTIONS]"
  else programName ++ String.join (used.eraseDups.map fun o => " " ++ o.display)

/-- The text after the options on the help page. -/
def layoutHelp : List String :=
  [ "Output layout:",
    "  <output>/hone_<version>_<release|debug>/",
    "    build_files/x86/      32-bit drivers and utilities (*.sys, *.exe)",
    "    build_files/x64/      64-bit drivers and utilities",
    "    debug_symbols/x86/    32-bit debug symbols (*.pdb)",
    "    debug_symbols/x64/    64-bit debug symbols",
    "    installers/           Hone-<version>-<platform>.exe",
    "    temp/installer/       installer staging area",
    "",
    "Stages:",
    "  a  build and package (default)",
    "  b  build drivers and utilities",
    "  i  package the installer from an existing build" ]

/-- The help page; `scriptDirEnv` is the current value of the script directory variable.
Descriptions line up two blanks after the longest option column. -/
def helpText (scriptDirEnv : Option String) : String :=
  let width := (CliOption.all.map fun o => o.spec.length).foldl max 0
  let line (o : CliOption) : String :=
    "  " ++ o.spec ++ String.ofList (List.replicate (width - o.spec.length + 2) ' ') ++
      o.description ++ o.notes scriptDirEnv
  "\n".intercalate ([programAbout, "", "Usage: " ++ usageLine [], "", "Options:"] ++
    CliOption.all.map line ++ [""] ++ layoutHelp) ++ "\n"

/-- The text of `--version`. -/
def versionText : String := programName ++ " " ++ programVersion ++ "\n"

end ReleaseBuild
