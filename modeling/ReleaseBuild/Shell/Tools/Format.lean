import ReleaseBuild.Shell.Tool
/-!
# `printf` formats

`printf FORMAT ARGS…` writes the format with its escapes interpreted and each conversion
replaced by the next argument. The format is used again as long as arguments are left (and
at least one conversion used one); a missing argument counts as empty or zero.

A conversion is `%`, flags (`-` to pad on the right, `0` to pad with zeros, `+` and a blank
for the sign, `#` for the alternate form), a width and a precision (digits or `*` for an
argument), and a letter: `s` (text), `b` (text with escapes), `c` (first character), `d`/`i`
(integer), `u`, `o`, `x`, `X` (unsigned in base 10, 8, 16), `f`, `e`, `g` (decimal
fractions), or `%` itself. An integer argument may be written in decimal, octal (`0…`),
hexadecimal (`0x…`), or as a quote followed by a character, which stands for its code.
-/

namespace ReleaseBuild

namespace Shell

/-- The result of formatting: the text, the arguments that were not numbers (with whether
they were partly converted), whether output stopped at `\c`, and an unknown conversion. -/
structure Formatted where
  text : String := ""
  badNumbers : List (String × Bool) := []
  stopped : Bool := false
  invalid : Option String := none
  deriving Repr

/-- Read an integer argument: the value and, when it is not a whole number, whether a prefix
was converted. -/
def numericArg (arg : String) : Int × Option Bool :=
  let cs := arg.toList.dropWhile fun c => c == ' ' || c == '\t' || c == '\n'
  match cs with
  | [] => (0, if arg.isEmpty then none else some false)
  | '\'' :: c :: _ | '"' :: c :: _ => (c.toNat, none)
  | _ =>
    let (negative, body) := match cs with
      | '-' :: more => (true, more)
      | '+' :: more => (false, more)
      | _ => (false, cs)
    let (base, digits) := match body with
      | '0' :: 'x' :: more | '0' :: 'X' :: more => (16, more)
      | '0' :: _ => (8, body)
      | _ => (10, body)
    let digit (c : Char) : Option Nat := if base == 16 then hexDigit? c
      else if base == 8 then octalDigit? c else if c.isDigit then some (c.toNat - 48) else none
    let good := digits.takeWhile fun c => (digit c).isSome
    let value : Nat := good.foldl (fun acc c => base * acc + (digit c).getD 0) 0
    let v : Int := if negative then -value else value
    if good.isEmpty && base != 8 then (0, some false)
    else if good.length == digits.length then (v, none)
    else (v, some true)

/-- Pad a text to a width, on the left or the right. -/
def padTo (text : String) (width : Nat) (left : Bool) (fill : Char) : String :=
  let n := width - text.length
  let pad := String.ofList (List.replicate n fill)
  if left then text ++ pad else pad ++ text

/-- The digits of a natural number in a base, upper case on request. -/
def digitsIn (base : Nat) (upper : Bool) (n : Nat) : String :=
  let ds := Nat.toDigits base n
  String.ofList (if upper then ds.map Char.toUpper else ds)

/-- A decimal fraction with a number of decimals, rounded half up. -/
def fixedDecimal (negative : Bool) (num den : Nat) (decimals : Nat) : String :=
  let scale := Nat.pow 10 decimals
  let scaled := (2 * num * scale + den) / (2 * den)
  let whole := scaled / scale
  let frac := scaled % scale
  let fracText := Text.zeroPad (toString frac) decimals
  (if negative && scaled != 0 then "-" else "") ++ toString whole ++
    (if decimals == 0 then "" else "." ++ fracText)

/-- Read a decimal argument as a fraction: sign, numerator and denominator. -/
def decimalArg (arg : String) : Bool × Nat × Nat × Bool :=
  let cs := arg.trimAscii.toString.toList
  let (negative, body) := match cs with
    | '-' :: more => (true, more)
    | '+' :: more => (false, more)
    | _ => (false, cs)
  let whole := body.takeWhile Char.isDigit
  let rest := body.drop whole.length
  let (frac, rest) := match rest with
    | '.' :: more => (more.takeWhile Char.isDigit, more.drop (more.takeWhile Char.isDigit).length)
    | _ => ([], rest)
  let digits := whole ++ frac
  let value := (String.ofList digits).toNat?.getD 0
  (negative, value, Nat.pow 10 frac.length, rest.isEmpty && !digits.isEmpty)

/-- One conversion read from a format: flags, width, precision and letter, and the rest. -/
structure Conversion where
  flags : List Char
  width : Option String
  precision : Option String
  letter : Char
  deriving Repr

/-- Read a conversion after its `%`. -/
def readConversion (cs : List Char) : Option (Conversion × List Char) :=
  let flags := cs.takeWhile fun c => c == '-' || c == '0' || c == '+' || c == ' ' || c == '#'
  let rest := cs.drop flags.length
  let width := if rest.head? == some '*' then ['*'] else rest.takeWhile Char.isDigit
  let rest := rest.drop width.length
  let (precision, rest) := match rest with
    | '.' :: more =>
      let p := if more.head? == some '*' then ['*'] else more.takeWhile Char.isDigit
      (some (String.ofList p), more.drop p.length)
    | _ => (none, rest)
  match rest with
  | c :: more =>
    some (⟨flags, if width.isEmpty then none else some (String.ofList width), precision, c⟩, more)
  | [] => none

/-- The state of formatting: the arguments left and whether a conversion used one. -/
structure FormatState where
  args : List String
  used : Bool := false
  out : Formatted := {}
  deriving Repr

namespace FormatState

/-- Take the next argument, if any. -/
def take (s : FormatState) : Option String × FormatState :=
  match s.args with
  | a :: rest => (some a, { s with args := rest, used := true })
  | [] => (none, s)

/-- Add text to the output. -/
def emit (s : FormatState) (text : String) : FormatState :=
  { s with out := { s.out with text := s.out.text ++ text } }

/-- Take an integer argument, noting a bad one. -/
def takeNumber (s : FormatState) : Int × FormatState :=
  let (arg, s) := s.take
  match arg with
  | none => (0, s)
  | some a =>
    let (v, bad) := numericArg a
    match bad with
    | some prefixRead => (v, { s with out := { s.out with badNumbers := s.out.badNumbers ++ [(a, prefixRead)] } })
    | none => (v, s)

end FormatState

/-- Apply one conversion. -/
def applyConversion (bStyle : EscapeStyle) (c : Conversion) (s : FormatState) : FormatState :=
  let (width, s) := match c.width with
    | some "*" => let (v, s) := s.takeNumber; (some v, s)
    | some w => (some (w.toNat! : Int), s)
    | none => (none, s)
  let (precision, s) := match c.precision with
    | some "*" => let (v, s) := s.takeNumber; (some v.toNat, s)
    | some p => (some p.toNat!, s)
    | none => (none, s)
  let left := c.flags.contains '-' || (width.map fun v => decide (v < 0)).getD false
  let w := (width.map Int.natAbs).getD 0
  let pad (text : String) (numeric : Bool) : String :=
    if !left && numeric && c.flags.contains '0' && precision.isNone then
      let (sign, body) := match text.toList with
        | '-' :: more => ("-", String.ofList more)
        | '+' :: more => ("+", String.ofList more)
        | _ => ("", text)
      sign ++ padTo body (w - sign.length) false '0'
    else padTo text w left ' '
  let withPrecision (digits : String) : String :=
    match precision with
    | some p => Text.zeroPad digits p
    | none => digits
  match c.letter with
  | 's' =>
    let (arg, s) := s.take
    let text := arg.getD ""
    let text := match precision with
      | some p => Text.takeChars text p
      | none => text
    s.emit (pad text false)
  | 'b' =>
    let (arg, s) := s.take
    let (text, stop) := escapeText bStyle (arg.getD "")
    let text := match precision with
      | some p => Text.takeChars text p
      | none => text
    let s := s.emit (pad text false)
    if stop then { s with out := { s.out with stopped := true } } else s
  | 'c' =>
    let (arg, s) := s.take
    let text := match (arg.getD "").toList with
      | ch :: _ => ch.toString
      | [] => ""
    s.emit (pad text false)
  | 'd' | 'i' =>
    let (v, s) := s.takeNumber
    let body := withPrecision (toString v.natAbs)
    let sign := if v < 0 then "-" else if c.flags.contains '+' then "+"
      else if c.flags.contains ' ' then " " else ""
    s.emit (pad (sign ++ body) true)
  | 'u' | 'o' | 'x' | 'X' =>
    let (v, s) := s.takeNumber
    let n : Nat := if v < 0 then (v + Nat.pow 2 64).toNat else v.toNat
    let base := if c.letter == 'o' then 8 else if c.letter == 'u' then 10 else 16
    let body := withPrecision (digitsIn base (c.letter == 'X') n)
    let body := if c.flags.contains '#' && n != 0 then
        (if c.letter == 'o' then "0" else if c.letter == 'x' then "0x" else if c.letter == 'X' then "0X" else "") ++ body
      else body
    s.emit (pad body true)
  | 'f' | 'F' | 'e' | 'E' | 'g' | 'G' =>
    let (arg, s) := s.take
    let (negative, num, den, _) := decimalArg (arg.getD "0")
    let text := fixedDecimal negative num den (precision.getD 6)
    let text := if !negative && c.flags.contains '+' then "+" ++ text else text
    s.emit (pad text true)
  | _ => { s with out := { s.out with invalid := some ("%" ++ c.letter.toString) } }

/-- One pass over the format. -/
def formatPass (style bStyle : EscapeStyle) : Nat → List Char → FormatState → FormatState
  | 0, _, s => s
  | _ + 1, [], s => s
  | fuel + 1, '%' :: '%' :: rest, s => formatPass style bStyle fuel rest (s.emit "%")
  | fuel + 1, '%' :: rest, s =>
    match readConversion rest with
    | some (c, after) =>
      let s := applyConversion bStyle c s
      if s.out.stopped || s.out.invalid.isSome then s else formatPass style bStyle fuel after s
    | none => { s with out := { s.out with invalid := some "%" } }
  | fuel + 1, '\\' :: rest, s =>
    let (text, stop, after) := escapeStep style rest
    let s := s.emit (String.ofList text)
    if stop then { s with out := { s.out with stopped := true } }
    else formatPass style bStyle fuel after s
  | fuel + 1, c :: rest, s => formatPass style bStyle fuel rest (s.emit c.toString)

/-- Format a text with arguments, reusing the format while arguments are left. -/
def formatPrintf (style bStyle : EscapeStyle) (format : String) (args : List String) : Formatted :=
  let cs := format.toList
  let rounds := args.length + 1
  let final := (List.range rounds).foldl (fun (acc : FormatState × Bool) _ =>
    let (s, go) := acc
    if !go then acc
    else
      let s' := formatPass style bStyle (cs.length + 1) cs { s with used := false }
      let more := !s'.args.isEmpty && s'.used && !s'.out.stopped && s'.out.invalid.isNone
      (s', more)) ({ args := args }, true)
  final.1.out

end Shell

end ReleaseBuild
