/-!
# Diagnostics

A diagnostic is what an operator reads when a run fails: one error message, optionally the
file it is about, lines of context, and suggestions for what to do next. It is printed as

```
error: <message>
  --> <location>
 * <context>
help: <suggestion>
```

with the `error` and `help` prefixes in bold red and bold green when colour is on. Nothing
else in the text changes with colour.
-/

namespace ReleaseBuild

/-- An error message with its location, context lines and suggestions. -/
structure Diagnostic where
  message : String
  location : Option String := none
  context : List String := []
  suggestions : List String := []
  deriving DecidableEq, Repr

namespace Diagnostic

/-- Suggestion for a missing build root. -/
def rebuildHint : String := "Check the version or try rebuilding with `-s b`"

/-- Suggestion after a tool failed. -/
def toolOutputHint : String := "Review the tool output above for details"

/-- Suggestion when signing requirements are missing. -/
def disableSigningHint : String := "Pass `-n` to skip signing for local builds"

/-- Suggestion after every timestamp server failed. -/
def checkNetworkHint : String := "Check network access to the timestamp servers"

/-- Suggestion when no installer compiler was found. -/
def installCompilerHint : String :=
  "Install Inno Setup 5 under Program Files or put `iscc` on PATH"

/-- The `error` prefix, bold red under colour. -/
def errorPrefix (color : Bool) : String :=
  if color then "\x1b[1;31merror\x1b[0m" else "error"

/-- The `help` prefix, bold green under colour. -/
def helpPrefix (color : Bool) : String :=
  if color then "\x1b[1;32mhelp\x1b[0m" else "help"

/-- The printed form: the message line, the location line, one line per context entry and
one per suggestion, each ending in a newline. -/
def format (d : Diagnostic) (color : Bool) : String :=
  errorPrefix color ++ ": " ++ d.message ++ "\n" ++
    (match d.location with
      | some loc => "  --> " ++ loc ++ "\n"
      | none => "") ++
    String.join (d.context.map fun c => " * " ++ c ++ "\n") ++
    String.join (d.suggestions.map fun s => helpPrefix color ++ ": " ++ s ++ "\n")

end Diagnostic

end ReleaseBuild
