import ReleaseBuild.Cli.Options
/-!
# Reading the command line

The arguments are read from left to right:

* `--name` or `--name=value` is an option by its long name; an option that takes a value and
  has none after `=` takes the next argument;
* `-abc` is a cluster of short names: flags are read one by one, and an option that takes a
  value takes the rest of the cluster (after an optional `=`) or else the next argument;
* `--` ends the options; anything else, and anything after `--`, is an unexpected argument.

An option's value is checked when the next option is read, or at the end: it must be present,
the option must not have been given before, and a path may not be empty. `--help` and
`--version` stop the reading at once. At the end, a missing script directory is taken from
`HONE_SCRIPT_DIR`, and missing options get their defaults.

A mistake is reported the way the command line library words it, with a usage line naming the
options given so far where it does, and for an unknown long name, the most similar known one
when it is similar enough (Jaro similarity above 0.7).

The program reads its command line through `ArgumentReader`, whose instance is this reading, so
that what the rest of the library proves of a run holds for every reading of the options.
-/

namespace ReleaseBuild

/-- A mistake on the command line. -/
inductive UsageError where
  /-- An argument that is no option; a similar option; the options for the usage line. -/
  | unknownArgument (arg : String) (suggestion : Option String) (used : List CliOption)
  /-- An option without its value, or with an empty path. -/
  | valueRequired (o : CliOption)
  /-- An option given twice. -/
  | repeated (o : CliOption)
  /-- A flag given a value with `=`. -/
  | unexpectedValue (value : String) (o : CliOption) (used : List CliOption)
  deriving DecidableEq, Repr

namespace UsageError

/-- The closing lines of a message: the usage line when there is one, and where to look. -/
def closing (usage : Option (List CliOption)) : String :=
  (match usage with
    | some used => "\n\nUsage: " ++ usageLine used
    | none => "") ++ "\n\nFor more information, try '--help'.\n"

/-- The message, as written to standard error. -/
def message : UsageError → String
  | unknownArgument arg suggestion used =>
    "error: unexpected argument '" ++ arg ++ "' found" ++
      (match suggestion with
        | some s => "\n\n  tip: a similar argument exists: '" ++ s ++ "'"
        | none => "") ++ closing (some used)
  | valueRequired o =>
    "error: a value is required for '" ++ o.display ++ "' but none was supplied" ++ closing none
  | repeated o =>
    "error: the argument '" ++ o.display ++ "' cannot be used multiple times" ++ closing (some [])
  | unexpectedValue value o used =>
    "error: unexpected value '" ++ value ++ "' for '" ++ o.display ++
      "' found; no more were expected" ++ closing (some used)

end UsageError

/-! ## Similar names -/

/-- The characters of `a` that match characters of `b` within the Jaro window, in the order of
`a`, and the positions of `b` they matched. -/
def jaroMatches (a b : List Char) : List Char × Array Bool :=
  let bs := b.toArray
  let window := max a.length b.length / 2 - 1
  let rec go : List Char → Nat → List Char × Array Bool → List Char × Array Bool
    | [], _, acc => acc
    | c :: rest, i, (found, flags) =>
      let lo := i - window
      let hi := min b.length (i + window + 1)
      let hit := (List.range hi).find? fun j => lo ≤ j && bs[j]? == some c && flags[j]? == some false
      match hit with
      | some j => go rest (i + 1) (found ++ [c], flags.setIfInBounds j true)
      | none => go rest (i + 1) (found, flags)
  go a 0 ([], Array.replicate b.length false)

/-- The Jaro similarity of two texts as a fraction, scaled by three: matches over each length,
plus matches without half the transpositions over matches. -/
def jaroScaled (a b : String) : Nat × Nat :=
  let (found, flags) := jaroMatches a.toList b.toList
  let inB := (b.toList.zip flags.toList).filterMap fun (c, f) => if f then some c else none
  let t := ((found.zip inB).filter fun (x, y) => x != y).length / 2
  let m := found.length
  let la := a.length
  let lb := b.length
  if m == 0 then (0, 1) else (m * lb * m + m * la * m + (m - t) * la * lb, la * lb * m)

/-- Whether one fraction is at most another. -/
def fractionLe (x y : Nat × Nat) : Bool := x.1 * y.2 ≤ y.1 * x.2

/-- The most similar candidate whose similarity exceeds 0.7; of equally similar ones the
last. -/
def didYouMean (arg : String) (candidates : List String) : Option String :=
  let scored := candidates.filterMap fun c =>
    let s := jaroScaled arg c
    if 21 * s.2 < 10 * s.1 then some (c, s) else none
  let best := scored.foldl (fun (acc : Option (String × Nat × Nat)) (c, s) =>
    match acc with
    | some (_, t) => if fractionLe t s then some (c, s) else acc
    | none => some (c, s)) none
  best.map (·.1)

/-! ## Reading -/

/-- What the command line asks for. -/
structure CommandLine where
  stage : String := "a"
  output : Option String := none
  version : Option String := none
  debug : Bool := false
  noSign : Bool := false
  certFile : Option String := none
  certPass : String := defaultCertificatePassword
  scriptDir : Option String := none
  verbose : Bool := false
  deriving DecidableEq, Repr

/-- The outcome of reading the command line. -/
inductive Request where
  | run (c : CommandLine)
  | showHelp
  | showVersion
  deriving DecidableEq, Repr

/-- Why reading stopped early: a mistake, or a request for help or the version. -/
inductive Stop where
  | mistake (e : UsageError)
  | help
  | version
  deriving DecidableEq, Repr

/-- The state of reading: the options taken so far with their values, in the order first
taken; an option waiting for or holding its value; whether `--` was seen. -/
structure Reading where
  given : List (CliOption × Option String) := []
  pending : Option (CliOption × Option String) := none
  escaped : Bool := false
  deriving DecidableEq, Repr

namespace Reading

/-- The options taken so far. -/
def used (r : Reading) : List CliOption := r.given.map (·.1)

/-- Take an option with its value, if any. -/
def take (r : Reading) (o : CliOption) (value : Option String) : Except Stop Reading :=
  if o == .help then .error .help
  else if o == .showVersion then .error .version
  else if o.takesValue && value.isNone then .error (.mistake (.valueRequired o))
  else if r.used.contains o then .error (.mistake (.repeated o))
  else if o.isPath && value == some "" then .error (.mistake (.valueRequired o))
  else .ok { r with given := r.given ++ [(o, value)] }

/-- Take the waiting option, if any. -/
def settle (r : Reading) : Except Stop Reading :=
  match r.pending with
  | none => .ok r
  | some (o, value) => { r with pending := none }.take o value

/-- Take the waiting option if it can be taken, and otherwise drop it (and an earlier
instance of it, which taking it again removed). -/
def settleQuietly (r : Reading) : Reading :=
  match r.settle with
  | .ok r' => r'
  | .error _ =>
    match r.pending with
    | some (o, some _) => { r with pending := none, given := r.given.filter (·.1 != o) }
    | _ => { r with pending := none }

/-- An unknown long name: the most similar known one joins the usage line. -/
def unknownLong (r : Reading) (name : String) : Stop :=
  let r := r.settleQuietly
  let suggestion := didYouMean name CliOption.longNames
  let suggested := suggestion.bind CliOption.ofLong?
  let used := match suggested with
    | some o => if r.used.contains o then r.used else r.used ++ [o]
    | none => r.used
  .mistake (.unknownArgument ("--" ++ name) (suggestion.map ("--" ++ ·)) used)

/-- An argument that is no option. -/
def unexpected (arg : String) : Stop := .mistake (.unknownArgument arg none [])

/-- Read a long option: its name and the value after `=`, if any. -/
def long (r : Reading) (name : String) (value : Option String) : Except Stop Reading :=
  match CliOption.ofLong? name with
  | none => .error (r.unknownLong name)
  | some o =>
    if o.takesValue then
      match value with
      | some v => do (← r.settle).take o (some v)
      | none => do
        let r ← r.settle
        pure { r with pending := some (o, none) }
    else
      match value with
      | some v => .error (.mistake (.unexpectedValue v o (r.used ++ [o])))
      | none => do (← r.settle).take o none

/-- Read a cluster of short names. -/
def shorts (r : Reading) : List Char → Except Stop Reading
  | [] => .ok r
  | c :: rest =>
    match CliOption.ofShort? c with
    | none => .error (unexpected ("-" ++ c.toString))
    | some o =>
      if !o.takesValue then do
        let r ← (← r.settle).take o none
        shorts r rest
      else if rest.isEmpty then do
        let r ← r.settle
        pure { r with pending := some (o, none) }
      else
        let value := match rest with
          | '=' :: v => v
          | _ => rest
        do (← r.settle).take o (some (String.ofList value))

/-- Read one argument. -/
def step (r : Reading) (arg : String) : Except Stop Reading :=
  if r.escaped then .error (unexpected arg)
  else if arg == "--" then .ok { r with escaped := true }
  else if arg.startsWith "--" then
    let body := (arg.toList.drop 2)
    let name := String.ofList (body.takeWhile (· != '='))
    let value := if body.contains '=' then
      some (String.ofList ((body.dropWhile (· != '=')).drop 1)) else none
    r.long name value
  else if arg.startsWith "-" && arg.length > 1 then r.shorts (arg.toList.drop 1)
  else
    match r.pending with
    | some (o, none) => .ok { r with pending := some (o, some arg) }
    | _ => .error (unexpected arg)

/-- The value given to an option. -/
def valueOf (r : Reading) (o : CliOption) : Option String :=
  (r.given.find? (·.1 == o)).bind (·.2)

/-- Whether a flag was given. -/
def has (r : Reading) (o : CliOption) : Bool := r.used.contains o

/-- The command line the options ask for, with defaults for the missing ones. -/
def commandLine (r : Reading) : CommandLine :=
  { stage := (r.valueOf .stage).getD "a"
    output := r.valueOf .output
    version := r.valueOf .version
    debug := r.has .debug
    noSign := r.has .noSign
    certFile := r.valueOf .certFile
    certPass := (r.valueOf .certPass).getD defaultCertificatePassword
    scriptDir := r.valueOf .scriptDir
    verbose := r.has .verbose }

end Reading

/-- Read a command line; `scriptDirEnv` is the value of `HONE_SCRIPT_DIR`, if set. -/
def readCommandLine (args : List String) (scriptDirEnv : Option String) :
    Except UsageError Request :=
  let finish : Except Stop Reading := do
    let r ← args.foldlM Reading.step {}
    let r ← r.settle
    if r.has .scriptDir then pure r
    else
      match scriptDirEnv with
      | some "" => throw (.mistake (.valueRequired .scriptDir))
      | some dir => pure { r with given := r.given ++ [(.scriptDir, some dir)] }
      | none => pure r
  match finish with
  | .ok r => .ok (.run r.commandLine)
  | .error (.mistake e) => .error e
  | .error .help => .ok .showHelp
  | .error .version => .ok .showVersion

/-- A reader of the command line, as the program uses the clap crate: what the arguments ask
for, given the value of `HONE_SCRIPT_DIR`, or the usage mistake in them. -/
class ArgumentReader where
  read : List String → Option String → Except UsageError Request

/-- The reading this library implements: `readCommandLine`. -/
instance : ArgumentReader := ⟨readCommandLine⟩

end ReleaseBuild
