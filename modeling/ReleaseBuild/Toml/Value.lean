import ReleaseBuild.Toml.Error
import ReleaseBuild.Toml.Tree
/-!
# Keys and values of TOML

The reading rules for the pieces of a line: whitespace, comments and line ends; bare, quoted
and dotted keys; and values: the four kinds of strings, integers in four bases, floats,
booleans, dates and times, arrays and inline tables.

A rule reads from a position of the text and gives what it read and the position after it,
or a fault at the position where it stopped. Where one of several forms may follow, the forms
are tried in turn as long as their faults are soft; once a form has shown itself (a string
after its quote, a date after its first `-`), its faults are committed.

Loops are bounded by the length of the text, since each round reads at least one character;
nesting of arrays and inline tables is limited to 80 levels.
-/

namespace ReleaseBuild

namespace Toml

/-- Whether a character is a space or a tab. -/
def isBlank (c : Char) : Bool := c == ' ' || c == '\t'

/-- Whether a character's code lies in a range. -/
def inRange (c : Char) (lo hi : Nat) : Bool := lo ≤ c.toNat && c.toNat ≤ hi

/-- Whether a character lies outside ASCII. -/
def isWide (c : Char) : Bool := 128 ≤ c.toNat

/-- Characters allowed in a comment. -/
def isCommentChar (c : Char) : Bool := c == '\t' || inRange c 0x20 0x7E || isWide c

/-- Characters that stand for themselves in a basic string. -/
def isBasicChar (c : Char) : Bool :=
  isBlank c || c.toNat == 0x21 || inRange c 0x23 0x5B || inRange c 0x5D 0x7E || isWide c

/-- Characters allowed in a literal string. -/
def isLiteralChar (c : Char) : Bool :=
  c == '\t' || inRange c 0x20 0x26 || inRange c 0x28 0x7E || isWide c

/-- Characters of a bare key. -/
def isKeyChar (c : Char) : Bool := c.isAlphanum || c == '-' || c == '_'

/-- Whether a character is a digit of a base of at most 16. -/
def isDigitOf (base : Nat) (c : Char) : Bool :=
  if base == 16 then c.isDigit || inRange c 0x41 0x46 || inRange c 0x61 0x66
  else c.isDigit && c.toNat - 48 < base

/-- The value of a digit of a base of at most 16. -/
def digitValue (c : Char) : Nat :=
  if c.isDigit then c.toNat - 48
  else if inRange c 0x61 0x66 then c.toNat - 87
  else c.toNat - 55

/-- The number written by digits of a base. -/
def digitsValue (base : Nat) (cs : List Char) : Nat :=
  cs.foldl (fun n c => n * base + digitValue c) 0

/-- The position after the longest run of characters with property `p`. -/
def skipWhile (s : Array Char) (p : Char → Bool) (i : Nat) : Nat :=
  if h : i < s.size then
    if p s[i] then skipWhile s p (i + 1) else i
  else i
termination_by s.size - i

/-- The characters between two positions. -/
def slice (s : Array Char) (i j : Nat) : List Char := (s.extract i j).toList

/-- Whether the text continues with the given characters at a position. -/
def looksAt (s : Array Char) (i : Nat) (lit : List Char) : Bool :=
  slice s i (i + lit.length) == lit

/-- Whether the character at a position has a property. -/
def holds (s : Array Char) (i : Nat) (p : Char → Bool) : Bool :=
  match s[i]? with
  | some c => p c
  | none => false

/-- Whether the character at a position is one of the given ones. -/
def isAt (s : Array Char) (i : Nat) (cs : List Char) : Bool := holds s i cs.contains

/-- Skip spaces and tabs. -/
def blanks (s : Array Char) (i : Nat) : Nat := skipWhile s isBlank i

/-- A comment, from its `#` to the end of its line. -/
def comment? (s : Array Char) (i : Nat) : Option Nat :=
  if s[i]? == some '#' then some (skipWhile s isCommentChar (i + 1)) else none

/-- A line break: a line feed, or a carriage return and a line feed. -/
def newline? (s : Array Char) (i : Nat) : Option Nat :=
  match s[i]? with
  | some '\n' => some (i + 1)
  | some '\r' => if s[i + 1]? == some '\n' then some (i + 2) else none
  | _ => none

/-- A line break or the end of the text. -/
def lineEnd? (s : Array Char) (i : Nat) : Option Nat :=
  if s.size ≤ i then some i else newline? s i

/-- The rest of a line after a key-value pair or a header: blanks, a comment, the line end. -/
def lineTrailing (s : Array Char) (i : Nat) : Except Fault Nat :=
  let j := blanks s i
  let j := (comment? s j).getD j
  match lineEnd? s j with
  | some k => .ok k
  | none => .error { pos := j, expected := [charName '\n', charName '#'] }

/-- Repeat a step while it moves forward, at most `fuel` times. -/
def advance (step : Nat → Except Fault (Option Nat)) : Nat → Nat → Except Fault Nat
  | 0, i => .ok i
  | fuel + 1, i => do
    match ← step i with
    | some j => if i < j then advance step fuel j else pure i
    | none => pure i

/-- Skip blanks and line breaks. -/
def blanksAndBreaks (s : Array Char) (i : Nat) : Nat :=
  let step : Nat → Except Fault (Option Nat) := fun i =>
    let j := blanks s i
    .ok (if i < j then some j else newline? s i)
  match advance step (s.size + 1) i with
  | .ok j => j
  | .error _ => i

/-- Blanks, comments and line breaks between the items of an array; a comment must end in a
line break. -/
def gap (s : Array Char) (i : Nat) : Except Fault Nat :=
  let step : Nat → Except Fault (Option Nat) := fun i =>
    let j := blanks s i
    match s[j]? with
    | some '#' =>
      let k := (comment? s j).getD j
      match newline? s k with
      | some m => .ok (some m)
      | none => .error { pos := k }
    | some '\n' | some '\r' =>
      match newline? s j with
      | some m => .ok (some m)
      | none => .error { pos := j }
    | _ => .ok (some j)
  advance step (s.size + 1) i

/-! ## Strings -/

/-- A hexadecimal escape of `n` digits at `i`, the character it names. -/
def hexEscape (s : Array Char) (i n : Nat) (label : String) : Except Fault (Char × Nat) :=
  let ds := slice s i (i + n)
  if ds.length == n && ds.all (isDigitOf 16) then
    let v := digitsValue 16 ds
    if v < 0xD800 || (0xDFFF < v && v < 0x110000) then .ok (Char.ofNat v, i + n)
    else .error { pos := i, labels := [label], cause := some "value is out of range", cut := true }
  else .error { pos := i, labels := [label], cut := true }

/-- An escape sequence; `i` is the position after the backslash. -/
def escape (s : Array Char) (i : Nat) : Except Fault (Char × Nat) :=
  match s[i]? with
  | none => .error { pos := i }
  | some 'b' => .ok ('\x08', i + 1)
  | some 'f' => .ok ('\x0c', i + 1)
  | some 'n' => .ok ('\n', i + 1)
  | some 'r' => .ok ('\r', i + 1)
  | some 't' => .ok ('\t', i + 1)
  | some '\\' => .ok ('\\', i + 1)
  | some '"' => .ok ('"', i + 1)
  | some 'u' => hexEscape s (i + 1) 4 "unicode 4-digit hex code"
  | some 'U' => hexEscape s (i + 1) 8 "unicode 8-digit hex code"
  | some _ =>
    .error { pos := i + 1, labels := ["escape sequence"], cut := true,
             expected := ['b', 'f', 'n', 'r', 't', 'u', 'U', '\\', '"'].map charName }

/-- The characters of a basic string from `i` to the first character that is neither plain
nor a good escape. -/
def basicChars (s : Array Char) : Nat → Nat → List Char → Except Fault ((List Char) × Nat)
  | 0, i, acc => .ok (acc, i)
  | fuel + 1, i, acc =>
    let j := skipWhile s isBasicChar i
    if i < j then basicChars s fuel j (acc ++ slice s i j)
    else if s[i]? == some '\\' then
      match escape s (i + 1) with
      | .ok (c, k) => basicChars s fuel k (acc ++ [c])
      | .error f => if f.cut then .error f else .ok (acc, i)
    else .ok (acc, i)

/-- A basic string `"…"` on one line. -/
def basicString (s : Array Char) (i : Nat) : Except Fault (String × Nat) := do
  let (cs, j) ← basicChars s (s.size + 1) (i + 1) []
  if s[j]? == some '"' then pure (String.ofList cs, j + 1)
  else .error { pos := j, labels := ["basic string"], cut := true }

/-- A literal string `'…'` on one line. -/
def literalString (s : Array Char) (i : Nat) : Except Fault (String × Nat) :=
  let j := skipWhile s isLiteralChar (i + 1)
  if s[j]? == some '\'' then .ok (String.ofList (slice s (i + 1) j), j + 1)
  else .error { pos := j, labels := ["literal string"], cut := true }

/-- A backslash at the end of a line: it joins the line to the next non-blank text. -/
def escapedBreak? (s : Array Char) (i : Nat) : Option Nat :=
  if s[i]? == some '\\' then (newline? s (blanks s (i + 1))).map (blanksAndBreaks s) else none

/-- One piece of a multi-line basic string: plain characters, a backslash at a line end, an
escape, or a line break (read as a line feed); `none` where none of them starts. -/
def basicPiece (s : Array Char) (i : Nat) : Except Fault (Option (List Char × Nat)) :=
  let j := skipWhile s isBasicChar i
  if i < j then .ok (some (slice s i j, j))
  else
    match escapedBreak? s i with
    | some k => .ok (some ([], k))
    | none =>
      if s[i]? == some '\\' then
        match escape s (i + 1) with
        | .ok (c, k) => .ok (some ([c], k))
        | .error f => if f.cut then .error f else .ok none
      else
        match newline? s i with
        | some k => .ok (some (['\n'], k))
        | none => .ok none

/-- One piece of a multi-line literal string: plain characters or a line break (read as a
line feed). -/
def literalPiece (s : Array Char) (i : Nat) : Except Fault (Option (List Char × Nat)) :=
  let j := skipWhile s isLiteralChar i
  if i < j then .ok (some (slice s i j, j))
  else
    match newline? s i with
    | some k => .ok (some (['\n'], k))
    | none => .ok none

/-- Pieces as long as they start. -/
def pieces (piece : Nat → Except Fault (Option (List Char × Nat))) :
    Nat → Nat → List Char → Except Fault ((List Char) × Nat)
  | 0, i, acc => .ok (acc, i)
  | fuel + 1, i, acc => do
    match ← piece i with
    | some (cs, j) => if i < j then pieces piece fuel j (acc ++ cs) else pure (acc ++ cs, j)
    | none => pure (acc, i)

/-- One or two quote characters `q` inside a multi-line string, followed by something that
`next` accepts. -/
def innerQuotes (s : Array Char) (q : Char) (next : Nat → Bool) (i : Nat) : Option Nat :=
  if s[i]? == some q && s[i + 1]? == some q && next (i + 2) then some (i + 2)
  else if s[i]? == some q && next (i + 1) then some (i + 1)
  else none

/-- Runs of one or two quotes inside a multi-line string, each followed by more pieces. A run
followed by no piece ends the body after the run. -/
def quoteRuns (s : Array Char) (q : Char)
    (piece : Nat → Except Fault (Option (List Char × Nat))) :
    Nat → Nat → List Char → Except Fault ((List Char) × Nat)
  | 0, i, acc => .ok (acc, i)
  | fuel + 1, i, acc =>
    match innerQuotes s q (fun k => holds s k (· != q)) i with
    | none => .ok (acc, i)
    | some j => do
      match ← piece j with
      | none => pure (acc, j)
      | some (cs, k) => do
        let (acc, k) ← pieces piece (s.size + 1) k (acc ++ slice s i j ++ cs)
        quoteRuns s q piece fuel k acc

/-- The body of a multi-line string up to its closing delimiter, which may be preceded by one
or two more quotes that belong to the body. -/
def multilineBody (s : Array Char) (q : Char)
    (piece : Nat → Except Fault (Option (List Char × Nat))) (i : Nat) : Except Fault ((List Char) × Nat) := do
  let (acc, i) ← pieces piece (s.size + 1) i []
  let (acc, i) ← quoteRuns s q piece (s.size + 1) i acc
  match innerQuotes s q (fun k => looksAt s k [q, q, q]) i with
  | some j => pure (acc ++ slice s i j, j)
  | none => pure (acc, i)

/-- A multi-line string delimited by three quotes `q`; a line break right after the opening
delimiter is not part of it. -/
def multilineString (s : Array Char) (q : Char)
    (piece : Nat → Except Fault (Option (List Char × Nat))) (label : String) (i : Nat) :
    Except Fault (String × Nat) :=
  let j := (newline? s (i + 3)).getD (i + 3)
  match multilineBody s q piece j with
  | .error f => .error (f.label label).commit
  | .ok (cs, k) =>
    if looksAt s k [q, q, q] then .ok (String.ofList cs, k + 3)
    else .error { pos := k, labels := [label], cut := true }

/-- A string of any of the four kinds. -/
def string (s : Array Char) (i : Nat) : Except Fault (DocValue × Nat) :=
  let r :=
    if looksAt s i ['"', '"', '"'] then
      multilineString s '"' (basicPiece s) "multiline basic string" i
    else if s[i]? == some '"' then basicString s i
    else if looksAt s i ['\'', '\'', '\''] then
      multilineString s '\'' (literalPiece s) "multiline literal string" i
    else literalString s i
  r.map fun (t, j) => (.string t, j)

/-! ## Keys -/

/-- A bare or quoted key, with its span. -/
def simpleKey (s : Array Char) (i : Nat) : Except Fault (Key × Nat) :=
  match s[i]? with
  | some '"' => do
    let (t, j) ← basicString s i
    pure ((t, some (i, j)), j)
  | some '\'' => do
    let (t, j) ← literalString s i
    pure ((t, some (i, j)), j)
  | _ =>
    let j := skipWhile s isKeyChar i
    if i < j then .ok ((String.ofList (slice s i j), some (i, j)), j) else .error { pos := i }

/-- The parts of a dotted key after the first. A dot followed by no key is not read. -/
def keyRest (s : Array Char) : Nat → Nat → List Key → Except Fault ((List Key) × Nat)
  | 0, i, acc => .ok (acc, i)
  | fuel + 1, i, acc =>
    if s[i]? == some '.' then
      match simpleKey s (blanks s (i + 1)) with
      | .ok (k, j) => keyRest s fuel (blanks s j) (acc ++ [k])
      | .error f => if f.cut then .error f else .ok (acc, i)
    else .ok (acc, i)

/-- A dotted key: simple keys separated by dots, with blanks around each. -/
def keyPath (s : Array Char) (i : Nat) : Except Fault ((List Key) × Nat) :=
  let r : Except Fault ((List Key) × Nat) := do
    let (k, j) ← simpleKey s (blanks s i)
    keyRest s (s.size + 1) (blanks s j) [k]
  r.mapError (Fault.label "key")

/-! ## Numbers, dates and times -/

/-- Digits of a base after the first, each possibly preceded by one underscore. -/
def digitsRest (s : Array Char) (base : Nat) : Nat → Nat → Except Fault Nat
  | 0, i => .ok i
  | fuel + 1, i =>
    if holds s i (isDigitOf base) then digitsRest s base fuel (i + 1)
    else if s[i]? == some '_' then
      if holds s (i + 1) (isDigitOf base) then digitsRest s base fuel (i + 2)
      else .error { pos := i + 1, expected := ["digit"], cut := true }
    else .ok i

/-- A decimal integer: an optional sign, then `0` or digits without a leading zero. -/
def decInt (s : Array Char) (i : Nat) : Except Fault Nat :=
  let j := if isAt s i ['+', '-'] then i + 1 else i
  let r : Except Fault Nat :=
    if holds s j (inRange · 0x31 0x39) then digitsRest s 10 (s.size + 1) (j + 1)
    else if s[j]? == some '0' then .ok (j + 1)
    else .error { pos := j }
  r.mapError (Fault.label "integer")

/-- Digits that may start with zero. -/
def zeroPrefixable (s : Array Char) (i : Nat) : Except Fault Nat :=
  if holds s i Char.isDigit then digitsRest s 10 (s.size + 1) (i + 1) else .error { pos := i }

/-- An exponent: `e` or `E`, an optional sign, digits. -/
def exponent (s : Array Char) (i : Nat) : Except Fault Nat :=
  let j := if isAt s (i + 1) ['+', '-'] then i + 2 else i + 1
  (zeroPrefixable s j).mapError Fault.commit

/-- A float written with a fraction, an exponent or both. -/
def floatLiteral (s : Array Char) (i : Nat) : Except Fault Nat := do
  let k ← decInt s i
  if isAt s k ['e', 'E'] then exponent s k
  else if s[k]? == some '.' then
    let m ← (zeroPrefixable s (k + 1)).mapError fun f => f.commit.expect "digit"
    if isAt s m ['e', 'E'] then exponent s m else pure m
  else .error { pos := k }

/-- Whether a float literal reads as positive infinity, which a document refuses: it is
not negative and too large for a double. Negative infinity is kept. -/
def isHuge (text : List Char) : Bool :=
  match text.filter (· != '_') with
  | '-' :: _ => false
  | '+' :: rest => (DocValue.literalDouble? rest).isNone
  | cs => (DocValue.literalDouble? cs).isNone

/-- A special float: `inf` or `nan`, with an optional sign. -/
def specialFloat (s : Array Char) (i : Nat) : Except Fault Nat :=
  let j := if isAt s i ['+', '-'] then i + 1 else i
  if looksAt s j ['i', 'n', 'f'] || looksAt s j ['n', 'a', 'n'] then .ok (j + 3)
  else .error { pos := j }

/-- A float. -/
def float (s : Array Char) (i : Nat) : Except Fault (DocValue × Nat) :=
  let literal (j : Nat) : DocValue := .float (String.ofList (slice s i j))
  match floatLiteral s i with
  | .ok j =>
    if isHuge (slice s i j) then
      .error { pos := i, labels := ["floating-point number"], cut := true }
    else .ok (literal j, j)
  | .error f =>
    if f.cut then .error (f.label "floating-point number")
    else
      match specialFloat s i with
      | .ok j => .ok (literal j, j)
      | .error f => .error (f.label "floating-point number")

/-- The smallest and largest integers a document may hold. -/
def intMin : Int := -9223372036854775808

/-- The largest integer a document may hold. -/
def intMax : Int := 9223372036854775807

/-- The failure of an integer too large for 64 bits. -/
def tooLarge (i : Nat) : Fault :=
  { pos := i, cause := some "number too large to fit in target type", cut := true }

/-- An integer written in base 16, 8 or 2 after its prefix. -/
def radixInt (s : Array Char) (i base : Nat) (label : String) : Except Fault (DocValue × Nat) :=
  let j := i + 2
  if holds s j (isDigitOf base) then
    match digitsRest s base (s.size + 1) (j + 1) with
    | .error f => .error (f.label label).commit
    | .ok k =>
      let v := digitsValue base ((slice s j k).filter (· != '_'))
      if (v : Int) ≤ intMax then .ok (.integer v, k) else .error (tooLarge i)
  else .error { pos := j, labels := [label], cut := true }

/-- An integer. -/
def integer (s : Array Char) (i : Nat) : Except Fault (DocValue × Nat) :=
  if looksAt s i ['0', 'x'] then radixInt s i 16 "hexadecimal integer"
  else if looksAt s i ['0', 'o'] then radixInt s i 8 "octal integer"
  else if looksAt s i ['0', 'b'] then radixInt s i 2 "binary integer"
  else do
    let j ← decInt s i
    let cs := (slice s i j).filter (· != '_')
    let magnitude : Int := digitsValue 10 (cs.dropWhile fun c => c == '+' || c == '-')
    let v := if cs.head? == some '-' then -magnitude else magnitude
    if intMax < v then .error (tooLarge i)
    else if v < intMin then
      .error { pos := i, cause := some "number too small to fit in target type", cut := true }
    else pure (.integer v, j)

/-- The number of days of a month. -/
def daysIn (year month : Nat) : Nat :=
  if month == 2 then
    if year % 4 == 0 && (year % 100 != 0 || year % 400 == 0) then 29 else 28
  else if month == 4 || month == 6 || month == 9 || month == 11 then 30
  else 31

/-- The failure of a field of a date or time out of its range. -/
def outOfRange (i : Nat) : Fault := { pos := i, cause := some "value is out of range" }

/-- Two digits with a value between `lo` and `hi`. -/
def twoDigits (s : Array Char) (i lo hi : Nat) : Except Fault Nat :=
  let ds := slice s i (i + 2)
  if ds.length == 2 && ds.all Char.isDigit then
    let v := digitsValue 10 ds
    if lo ≤ v && v ≤ hi then .ok v else .error (outOfRange i)
  else .error { pos := i }

/-- A character that must stand at a position. -/
def need (s : Array Char) (i : Nat) (c : Char) : Except Fault Unit :=
  if s[i]? == some c then .ok () else .error { pos := i }

/-- A time `hh:mm:ss` with optional fraction of a second. -/
def partialTime (s : Array Char) (i : Nat) : Except Fault Nat := do
  let _ ← twoDigits s i 0 23
  need s (i + 2) ':'
  let rest : Except Fault Nat := do
    let _ ← twoDigits s (i + 3) 0 59
    need s (i + 5) ':'
    let _ ← twoDigits s (i + 6) 0 60
    let k := i + 8
    if s[k]? == some '.' && holds s (k + 1) Char.isDigit then
      pure (skipWhile s Char.isDigit (k + 1))
    else pure k
  rest.mapError Fault.commit

/-- An optional offset after a time: `Z`, or a sign and `hh:mm`. -/
def timeOffset (s : Array Char) (i : Nat) : Except Fault Nat :=
  if isAt s i ['Z', 'z'] then .ok (i + 1)
  else if isAt s i ['+', '-'] then
    let r : Except Fault Nat := do
      let _ ← twoDigits s (i + 1) 0 23
      need s (i + 3) ':'
      let _ ← twoDigits s (i + 4) 0 59
      pure (i + 6)
    r.mapError fun f => (f.label "time offset").commit
  else .ok i

/-- A date `yyyy-mm-dd` whose day exists in its month. -/
def fullDate (s : Array Char) (i : Nat) : Except Fault Nat := do
  let ys := slice s i (i + 4)
  if !(ys.length == 4 && ys.all Char.isDigit) then throw { pos := i }
  need s (i + 4) '-'
  let rest : Except Fault Nat := do
    let month ← twoDigits s (i + 5) 1 12
    need s (i + 7) '-'
    let day ← twoDigits s (i + 8) 1 31
    if daysIn (digitsValue 10 ys) month < day then throw (outOfRange (i + 8))
    pure (i + 10)
  rest.mapError Fault.commit

/-- A date with optional time and offset, or a time alone. -/
def dateTime (s : Array Char) (i : Nat) : Except Fault (DocValue × Nat) :=
  let done (j : Nat) : Except Fault (DocValue × Nat) := .ok (.datetime (String.ofList (slice s i j)), j)
  match fullDate s i with
  | .ok j =>
    let withTime : Except Fault Nat :=
      if isAt s j ['T', 't', ' '] then
        match partialTime s (j + 1) with
        | .ok k => timeOffset s k
        | .error f => if f.cut then .error f else .ok j
      else .ok j
    match withTime with
    | .ok k => done k
    | .error f => .error (f.label "date-time")
  | .error f =>
    if f.cut then .error (f.label "date-time")
    else
      match partialTime s i with
      | .ok k => done k
      | .error f => .error (f.label "time")

/-- A date or time, float or integer, tried in that order. -/
def number (s : Array Char) (i : Nat) : Except Fault (DocValue × Nat) :=
  match dateTime s i with
  | .ok r => .ok r
  | .error f =>
    if f.cut then .error f
    else
      match float s i with
      | .ok r => .ok r
      | .error f => if f.cut then .error f else integer s i

/-! ## Values -/

/-- A word value such as `true`; a text that starts like it but differs is reported as a
string without quotes. -/
def keyword (s : Array Char) (i : Nat) (word : List Char) (v : DocValue) (committed : Bool) :
    Except Fault (DocValue × Nat) :=
  if looksAt s i word then .ok (v, i + word.length)
  else .error { pos := i, cut := committed, labels := ["string"],
                expected := [charName '"', charName '\''] }

/-- The name of the type of a value, as a conflict names it. -/
def kindOf : DocValue → String
  | .null => "none"
  | .boolean _ => "boolean"
  | .integer _ => "integer"
  | .float _ => "float"
  | .string _ => "string"
  | .datetime _ => "datetime"
  | .array _ => "array"
  | .table _ => "inline table"

/-- Gather the pairs of an inline table into a table. -/
def inlineFrame (pairs : List (List Key × Key × DocValue × (Nat × Nat))) :
    Except Conflict Frame :=
  pairs.foldlM (fun f (path, key, v, span) =>
    Frame.define true none path key (.value v (kindOf v) span) f) {}

/-- The deepest nesting of arrays and inline tables. -/
def nestingLimit : Nat := 80

/-- The failure of nesting too deep. -/
def tooDeep (i : Nat) : Fault := { pos := i, cause := some "recursion limit exceeded", cut := true }

mutual

/-- A value at `i`; `depth` counts the arrays and inline tables around it. -/
def value (s : Array Char) : Nat → Nat → Nat → Except Fault (DocValue × Nat)
  | 0, _, i => .error { pos := i, cut := true }
  | fuel + 1, depth, i =>
    match s[i]? with
    | none => .error { pos := i }
    | some c =>
      if c == '"' || c == '\'' then string s i
      else if c == '[' then
        if nestingLimit ≤ depth + 1 then .error (tooDeep i) else array s fuel (depth + 1) i
      else if c == '{' then
        if nestingLimit ≤ depth + 1 then .error (tooDeep i) else inlineTable s fuel (depth + 1) i
      else if c == '+' || c == '-' || c.isDigit then number s i
      else if c == '_' then (integer s i).mapError (Fault.expect "leading digit")
      else if c == '.' then (float s i).mapError (Fault.expect "leading digit")
      else if c == 't' then keyword s i ['t', 'r', 'u', 'e'] (.boolean true) true
      else if c == 'f' then keyword s i ['f', 'a', 'l', 's', 'e'] (.boolean false) true
      else if c == 'i' then keyword s i ['i', 'n', 'f'] (.float "inf") false
      else if c == 'n' then keyword s i ['n', 'a', 'n'] (.float "nan") false
      else .error { pos := i, labels := ["string"], expected := [charName '"', charName '\''] }

/-- An item of an array with the gaps around it. -/
def arrayItem (s : Array Char) : Nat → Nat → Nat → Except Fault ((DocValue × Span) × Nat)
  | 0, _, i => .error { pos := i, cut := true }
  | fuel + 1, depth, i => do
    let j ← gap s i
    let (v, k) ← value s fuel depth j
    let m ← gap s k
    pure ((v, some (j, k)), m)

/-- The items of an array after the first, each after a comma. A comma followed by no item is
not read. -/
def arrayRest (s : Array Char) :
    Nat → Nat → Nat → List (DocValue × Span) → Except Fault ((List (DocValue × Span)) × Nat)
  | 0, _, i, acc => .ok (acc, i)
  | fuel + 1, depth, i, acc =>
    if s[i]? == some ',' then
      match arrayItem s fuel depth (i + 1) with
      | .ok (item, j) => arrayRest s fuel depth j (acc ++ [item])
      | .error f => if f.cut then .error f else .ok (acc, i)
    else .ok (acc, i)

/-- An array `[…]`: items separated by commas, with an optional comma after the last. -/
def array (s : Array Char) : Nat → Nat → Nat → Except Fault (DocValue × Nat)
  | 0, _, i => .error { pos := i, cut := true }
  | fuel + 1, depth, i => do
    let j := i + 1
    let (items, k) ← if s[j]? == some ']' then pure ([], j) else do
      let (items, k) ← match arrayItem s fuel depth j with
        | .ok (item, k) => arrayRest s fuel depth k [item]
        | .error f => if f.cut then .error f else pure ([], j)
      let k := if !items.isEmpty && s[k]? == some ',' then k + 1 else k
      let k ← (gap s k).mapError Fault.commit
      pure (items, k)
    if s[k]? == some ']' then pure (.array items, k + 1)
    else .error { pos := k, labels := ["array"], expected := [charName ']'], cut := true }

/-- A key-value pair of an inline table: the dotted part of the key, the last key, the value
and its span. -/
def inlinePair (s : Array Char) :
    Nat → Nat → Nat → Except Fault ((List Key × Key × DocValue × (Nat × Nat)) × Nat)
  | 0, _, i => .error { pos := i, cut := true }
  | fuel + 1, depth, i => do
    let (path, j) ← keyPath s i
    if s[j]? != some '=' then
      throw { pos := j, expected := [charName '.', charName '='], cut := true }
    let k := blanks s (j + 1)
    let (v, m) ← (value s fuel depth k).mapError Fault.commit
    match path.getLast? with
    | some key => pure ((path.dropLast, key, v, (k, m)), blanks s m)
    | none => throw { pos := i, cut := true }

/-- The pairs of an inline table after the first, each after a comma. -/
def inlineRest (s : Array Char) :
    Nat → Nat → Nat → List (List Key × Key × DocValue × (Nat × Nat)) →
      Except Fault ((List (List Key × Key × DocValue × (Nat × Nat))) × Nat)
  | 0, _, i, acc => .ok (acc, i)
  | fuel + 1, depth, i, acc =>
    if s[i]? == some ',' then
      match inlinePair s fuel depth (i + 1) with
      | .ok (p, j) => inlineRest s fuel depth j (acc ++ [p])
      | .error f => if f.cut then .error f else .ok (acc, i)
    else .ok (acc, i)

/-- An inline table `{…}`: key-value pairs separated by commas, on one line. -/
def inlineTable (s : Array Char) : Nat → Nat → Nat → Except Fault (DocValue × Nat)
  | 0, _, i => .error { pos := i, cut := true }
  | fuel + 1, depth, i => do
    let j := i + 1
    let (pairs, k) ← match inlinePair s fuel depth j with
      | .ok (p, k) => inlineRest s fuel depth k [p]
      | .error f => if f.cut then .error f else pure ([], j)
    let k := blanks s k
    let frame ← match inlineFrame pairs with
      | .ok f => pure f
      | .error c => throw { pos := j, cause := some c.message, cut := true }
    if s[k]? == some '}' then pure (frame.toDoc, k + 1)
    else .error { pos := k, labels := ["inline table"], expected := [charName '}'], cut := true }

end

end Toml

end ReleaseBuild
