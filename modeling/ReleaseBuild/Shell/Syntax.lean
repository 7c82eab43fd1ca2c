/-!
# Shell syntax

The tools a release runs are often small shell scripts. This module holds the syntax of the
shell language they are written in, a subset of the POSIX shell command language:

* a word is a sequence of parts: literal text outside quotes, quoted text, parameters such as
  `$1` or `${name:-default}`, command substitutions `$(…)` and arithmetic `$((…))`;
* a simple command is a list of assignments, words and redirections;
* commands combine into pipelines `a | b`, lists `a && b || c`, sequences `a; b`, and the
  compound commands `{ …; }`, `( … )`, `if`, `while`, `until`, `for` and `case`, and function
  definitions `name() { …; }`.

Texts that are read again when they are used (the body of a command substitution, the word of
`${name:-word}`, an arithmetic expression, the body of a here-document) are kept as source text.
-/

namespace ReleaseBuild

namespace Shell

/-- How a parameter expansion uses the parameter. The word or pattern is kept as source text;
`colon` makes an empty value count as unset. -/
inductive ParamOp where
  | plain
  | length
  | useDefault (word : String) (colon : Bool)
  | assignDefault (word : String) (colon : Bool)
  | useAlternative (word : String) (colon : Bool)
  | errorIfUnset (word : String) (colon : Bool)
  | removeSuffix (pattern : String) (longest : Bool)
  | removePrefix (pattern : String) (longest : Bool)
  /-- A form the shell does not accept, reported when the word is expanded. -/
  | invalid
  deriving DecidableEq, Repr, Inhabited

/-- A piece of a word. `quoted` records whether it stands inside double quotes, where its value
is neither split into fields nor matched against file names. -/
inductive Part where
  /-- Text outside quotes. -/
  | bare (text : String)
  /-- Text in quotes or after a backslash, taken as it is. -/
  | literal (text : String)
  /-- A parameter. -/
  | param (name : String) (op : ParamOp) (quoted : Bool)
  /-- A command substitution, by its source text. -/
  | command (source : String) (quoted : Bool)
  /-- An arithmetic expansion, by its source text. -/
  | arith (source : String) (quoted : Bool)
  deriving DecidableEq, Repr, Inhabited

/-- A word: its parts. -/
abbrev Word := List Part

/-- A redirection of a file descriptor. -/
inductive Redirect where
  /-- `n> word`, `n>> word` or `n>| word`. -/
  | output (fd : Nat) (target : Word) (append : Bool)
  /-- `n< word`. -/
  | input (fd : Nat) (target : Word)
  /-- `n<> word`. -/
  | readWrite (fd : Nat) (target : Word)
  /-- `n>&word` or `n<&word`: a copy of another descriptor, or `-` to close. -/
  | duplicate (fd : Nat) (target : Word)
  /-- A here-document: its body, expanded unless its delimiter was quoted. -/
  | hereDoc (fd : Nat) (body : String) (expand : Bool)
  deriving DecidableEq, Repr, Inhabited

/-- A command. `line` is the line where a simple command starts, for messages. -/
inductive Command where
  | simple (assigns : List (String × Word)) (words : List Word) (redirects : List Redirect)
      (line : Nat)
  | group (body : Command) (redirects : List Redirect)
  | subshell (body : Command) (redirects : List Redirect)
  | ifThen (branches : List (Command × Command)) (otherwise : Option Command)
      (redirects : List Redirect)
  | loop (condition body : Command) (untilLoop : Bool) (redirects : List Redirect)
  | forEach (name : String) (items : Option (List Word)) (body : Command)
      (redirects : List Redirect)
  | caseOf (subject : Word) (arms : List (List Word × Command)) (redirects : List Redirect)
  | function (name : String) (body : Command)
  | pipeline (negated : Bool) (stages : List Command)
  | andOr (first : Command) (rest : List (Bool × Command))
  | sequence (items : List Command)
  | background (body : Command)
  deriving Repr, Inhabited

end Shell

end ReleaseBuild
