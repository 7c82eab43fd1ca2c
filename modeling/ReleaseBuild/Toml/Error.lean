/-!
# Errors of a TOML document

A TOML document is read from left to right. When it does not parse, the reader stops at one
position and says what it was reading there (a label such as `table header`), what it would
have accepted there (such as `` `.` `` or `newline`), and, when a well-formed piece was still
refused, why. A fault is either soft, so that an enclosing rule may try something else, or
committed, which ends the reading.

An error found after parsing, such as a value of the wrong type, points at the whole value
instead of one position.

An error is shown with the line it points into: its line and column, the line itself, and
carets under the offending text. Columns count characters from one, except when the position
holds a character outside ASCII, where they count bytes. There is always one caret, and
never more than reach one past the end of the line.
-/

namespace ReleaseBuild

namespace Toml

/-- Why reading stopped: the position, what was being read (innermost first), what would have
been accepted, a reason, and whether the fault is committed. -/
structure Fault where
  pos : Nat
  labels : List String := []
  expected : List String := []
  cause : Option String := none
  cut : Bool := false
  deriving DecidableEq, Repr

namespace Fault

/-- Say what was being read when the fault arose. -/
def label (l : String) (f : Fault) : Fault := { f with labels := f.labels ++ [l] }

/-- Add something that would have been accepted. -/
def expect (e : String) (f : Fault) : Fault := { f with expected := f.expected ++ [e] }

/-- Commit the fault, so that no alternative is tried. -/
def commit (f : Fault) : Fault := { f with cut := true }

/-- The message: `invalid <label>` for the innermost label, `expected a, b` for what would
have been accepted, and the reason, one per line. -/
def message (f : Fault) : String :=
  let head := match f.labels.head? with
    | some l => ["invalid " ++ l]
    | none => []
  let expected := if f.expected.isEmpty then [] else ["expected " ++ ", ".intercalate f.expected]
  "\n".intercalate (head ++ expected ++ f.cause.toList)

end Fault

/-- A character as an expectation names it. -/
def charName (c : Char) : String :=
  if c == '\n' then "newline" else "`" ++ c.toString ++ "`"

/-- An error of a document: the message and the characters it points at, when known. -/
structure TomlError where
  message : String
  span : Option (Nat × Nat)
  deriving DecidableEq, Repr

/-- The error a fault ends the reading with: it points at the position where reading stopped,
with a single caret. -/
def Fault.toError (f : Fault) : TomlError := ⟨f.message, some (f.pos, f.pos)⟩

/-- The number of bytes characters take in UTF-8. -/
def byteLength (cs : List Char) : Nat := cs.foldl (fun n c => n + c.utf8Size) 0

/-- The line and column, both from zero, of a position of a text. A position at the end is
one column past the last character. -/
def lineColumn (src : Array Char) (i : Nat) : Nat × Nat :=
  if src.size = 0 then (0, i)
  else
    let safe := min i (src.size - 1)
    let before := (src.extract 0 safe).toList
    let lineStart := match before.reverse.findIdx? (· == '\n') with
      | some k => safe - k
      | none => 0
    let line := (before.take lineStart).count '\n'
    let inLine := before.drop lineStart
    let column := match src[safe]? with
      | some c => if c.toNat < 128 || safe < i then inLine.length else byteLength inLine
      | none => inLine.length
    (line, column + (i - safe))

/-- A run of one character. -/
def run (n : Nat) (c : Char) : String := String.ofList (List.replicate n c)

/-- The error as shown for a text: position, the line with carets under the span, and the
message. -/
def TomlError.render (src : Array Char) (e : TomlError) : String :=
  match e.span with
  | none => e.message ++ "\n"
  | some (start, stop) =>
    let (line, column) := lineColumn src start
    let content := ((String.ofList src.toList).splitOn "\n")[line]?.getD ""
    let width := byteLength (src.extract start stop).toList
    let highlight := min width (byteLength content.toList - column)
    let number := toString (line + 1)
    let pad := run (number.length + 1) ' '
    "TOML parse error at line " ++ number ++ ", column " ++ toString (column + 1) ++ "\n" ++
      pad ++ "|\n" ++ number ++ " | " ++ content ++ "\n" ++
      pad ++ "|" ++ run (column + 1) ' ' ++ run (max highlight 1) '^' ++ "\n" ++
      e.message ++ "\n"

end Toml

end ReleaseBuild
