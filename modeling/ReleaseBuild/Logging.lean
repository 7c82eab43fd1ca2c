import ReleaseBuild.Machine
/-!
# Log filters and the console

Which progress reports are shown is decided by a filter: a list of directives, each naming a
target prefix (or every target) and the most detailed level it shows, or `off`. The filter is
written as comma-separated directives:

* `info`, `DEBUG`, `off` or a digit `0`–`5` set the level for every target;
* `hone_build::ops=debug` sets it for the targets starting with `hone_build::ops`; a target
  alone, or with `=` and nothing after, shows every level.

Of the directives whose target prefixes a report's target, the one with the longest prefix
decides (the later one among equal prefixes); a report that no directive covers is hidden. A
filter with a directive that does not read this way is refused as a whole. Directives about
spans never cover a report, since reports are made outside spans.

On the console a report is one line: its level right-aligned in five columns, a blank and the
message; with colours, the level is coloured by its severity.
-/

namespace ReleaseBuild

/-- A directive: the target prefix it covers (every target when absent) and the most detailed
level it shows (nothing when absent). -/
structure Directive where
  target : Option String
  limit : Option Level
  deriving DecidableEq, Repr

/-- A level filter as written: a digit from `0` (off) to `5` (trace) or a level's name in any
case; `some none` is `off`. -/
def levelLimit? (s : String) : Option (Option Level) :=
  match s.toLower with
  | "0" | "off" => some none
  | "1" | "error" => some (some .error)
  | "2" | "warn" => some (some .warn)
  | "3" | "info" => some (some .info)
  | "4" | "debug" => some (some .debug)
  | "5" | "trace" => some (some .trace)
  | _ => none

/-- Characters of a target name. -/
def isTargetChar (c : Char) : Bool :=
  c.isAlphanum || c == '_' || c == ':' || c == '-' || 128 ≤ c.toNat

/-- The parts before the level of a directive: up to two pieces, each a target name or a span
in brackets. Gives the last target, whether a span was named, and the rest of the text. -/
def directiveHead : Nat → List Char → Option String → Bool → Option (Option String × Bool × List Char)
  | 0, cs, target, span => some (target, span, cs)
  | fuel + 1, cs, target, span =>
    match cs with
    | '[' :: rest =>
      let after := rest.dropWhile (· != ']')
      match after with
      | ']' :: more => directiveHead fuel more target true
      | _ => none
    | _ =>
      let name := cs.takeWhile isTargetChar
      if name.isEmpty then
        if fuel == 1 then none else some (target, span, cs)
      else directiveHead fuel (cs.drop name.length) (some (String.ofList name)) span

/-- Read one directive; `none` when it does not read. A directive about spans is read as one
that covers nothing. -/
def Directive.parse? (s : String) : Option (Option Directive) :=
  match levelLimit? s with
  | some limit => some (some ⟨none, limit⟩)
  | none => do
    let (target, span, rest) ← directiveHead 2 s.toList none false
    let limit ← match rest with
      | [] => some (some Level.trace)
      | '=' :: [] => some (some Level.trace)
      | '=' :: level => levelLimit? (String.ofList level)
      | _ => none
    let target := target.filter fun t => (levelLimit? t).isNone
    if span then pure none else pure (some ⟨target, limit⟩)

/-- A log filter: its directives in the order written. -/
structure LogFilter where
  directives : List Directive
  deriving DecidableEq, Repr

namespace LogFilter

/-- Read a filter; `none` when a directive does not read. -/
def parse? (s : String) : Option LogFilter :=
  let pieces := (s.splitOn ",").filter (· != "")
  (pieces.mapM Directive.parse?).map fun ds => ⟨ds.filterMap id⟩

/-- The filter used when none is given: the program's own reports at `info`, or at `debug`
when verbose. -/
def standard (verbose : Bool) : LogFilter :=
  ⟨[⟨some "hone_build", some (if verbose then .debug else .info)⟩]⟩

/-- The directive that decides about a target: the one with the longest prefix of it, the
later of equal ones. -/
def decisive (f : LogFilter) (target : String) : Option Directive :=
  f.directives.foldl (fun best d =>
    let length := match d.target with
      | some t => if t.toList.isPrefixOf target.toList then some t.length else none
      | none => some 0
    match length, best with
    | none, _ => best
    | some _, none => some d
    | some n, some b =>
      if (b.target.map String.length).getD 0 ≤ n then some d else best) none

/-- Whether a report of a level from a target is shown. -/
def shows (f : LogFilter) (target : String) (level : Level) : Bool :=
  match f.decisive target with
  | some ⟨_, some limit⟩ => level.rank ≤ limit.rank
  | _ => false

end LogFilter

/-- The colour code of a level. -/
def Level.colour : Level → String
  | .error => "31"
  | .warn => "33"
  | .info => "32"
  | .debug => "34"
  | .trace => "35"

/-- A report as a console line. -/
def LogEvent.line (e : LogEvent) (colour : Bool) : String :=
  let label := Text.padLeft e.level.label 5
  let label := if colour then "\x1b[" ++ e.level.colour ++ "m" ++ label ++ "\x1b[0m" else label
  label ++ " " ++ e.message ++ "\n"

/-- What the console shows: the text on standard output and on standard error. Reports go to
standard output when the filter shows them. -/
def renderConsole (f : LogFilter) (colour : Bool) (console : List Emission) : String × String :=
  console.foldl (fun (out, err) e =>
    match e with
    | .log ev => if f.shows ev.reporter.target ev.level then (out ++ ev.line colour, err) else (out, err)
    | .out text => (out ++ text, err)
    | .err text => (out, err ++ text)) ("", "")

end ReleaseBuild
