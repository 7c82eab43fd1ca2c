import ReleaseBuild.Settings
import ReleaseBuild.Double
/-!
# Settings documents

Settings arrive as a document: the parsed settings file, or the same data given directly. A
document value is a string, number, boolean, date, array or table; data given directly may
also hold `null`. Every value may carry the span of source text it was read from, so that an
error can point at it.

Reading settings out of a document follows three rules:

* a section or the whole settings may be a table, whose keys are matched by name (unknown
  keys are ignored, missing ones keep their defaults), or an array, whose items fill the keys
  in order (missing items keep their defaults); a date read as a section is a table with
  no key of the section, so the section keeps its defaults;
* the helper and the platform tag must be strings, the servers an array of strings;
* the first value of the wrong type, in the order the document lists them, is reported as
  `invalid type: <what was found>, expected <what was wanted>`.
-/

namespace ReleaseBuild

/-- Where a value was read from: start and end offsets in the source text, when known. -/
abbrev Span := Option (Nat × Nat)

/-- A value of a settings document. -/
inductive DocValue where
  | null
  | boolean (b : Bool)
  | integer (i : Int)
  | float (text : String)
  | string (s : String)
  | datetime (text : String)
  | array (items : List (DocValue × Span))
  | table (entries : List (String × DocValue × Span))
  deriving Repr, Inhabited

/-- A value of the wrong type, and where it was read from. -/
structure DecodeError where
  message : String
  span : Span
  deriving DecidableEq, Repr

namespace DocValue

/-- A character as written inside a double-quoted debug text. -/
def escapeChar (c : Char) : String :=
  if c == '"' then "\\\""
  else if c == '\\' then "\\\\"
  else if c == '\n' then "\\n"
  else if c == '\r' then "\\r"
  else if c == '\t' then "\\t"
  else if c == '\x00' then "\\0"
  else if c.toNat < 32 || c.toNat == 127 then
    "\\u" ++ "\x7b" ++ String.ofList (Nat.toDigits 16 c.toNat) ++ "\x7d"
  else c.toString

/-- A text in double quotes with quotes, backslashes and control characters escaped. -/
def quoted (s : String) : String := "\"" ++ String.join (s.toList.map escapeChar) ++ "\""

/-- The significant digits of a decimal literal and the position of its decimal point: the
literal denotes `0.d₁d₂… × 10^point`. Leading and trailing zeros are dropped, so zero has no
digits. -/
def decimalDigits (cs : List Char) : List Char × Int :=
  let mantissa := cs.takeWhile fun c => c != 'e' && c != 'E'
  let expText := (cs.dropWhile fun c => c != 'e' && c != 'E').drop 1
  let expDigits := expText.dropWhile fun c => c == '+' || c == '-'
  let expValue : Int := (String.ofList expDigits).toNat?.getD 0
  let e : Int := if expText.head? == some '-' then -expValue else expValue
  let whole := mantissa.takeWhile (· != '.')
  let fraction := (mantissa.dropWhile (· != '.')).drop 1
  let all := whole ++ fraction
  let lead := (all.takeWhile (· == '0')).length
  let digits := ((all.drop lead).reverse.dropWhile (· == '0')).reverse
  (digits, e + whole.length - lead)

/-- Significant digits written out with the decimal point at `point`, never with an exponent,
and with `.0` after a whole number. -/
def positional (digits : List Char) (point : Int) : String :=
  if digits.isEmpty then "0.0"
  else if point ≤ 0 then "0." ++ String.ofList (List.replicate point.natAbs '0' ++ digits)
  else
    let p := point.toNat
    if digits.length ≤ p then String.ofList (digits ++ List.replicate (p - digits.length) '0') ++ ".0"
    else String.ofList (digits.take p) ++ "." ++ String.ofList (digits.drop p)

/-- The double an unsigned decimal float literal stands for; `none` when it is too large
and reads as infinity. -/
def literalDouble? (body : List Char) : Option Double :=
  let (digits, point) := decimalDigits body
  let d := digits.foldl (fun n c => 10 * n + (c.toNat - '0'.toNat)) 0
  Double.nearest d (point - digits.length)

/-- A floating point literal as the double it stands for prints: the shortest decimal that
reads back, written out in full, with `.0` after a whole number. Infinity prints as `inf`
and not-a-number as `NaN`, which has no sign. -/
def floatText (text : String) : String :=
  let cs := text.toList.filter (· != '_')
  let cs := match cs with
    | '+' :: rest => rest
    | _ => cs
  let (negative, body) := match cs with
    | '-' :: rest => (true, rest)
    | _ => (false, cs)
  let s := String.ofList body
  let sign := if negative then "-" else ""
  if s == "inf" then sign ++ "inf"
  else if s == "nan" then "NaN"
  else
    match literalDouble? body with
    | none => sign ++ "inf"
    | some x =>
      let (digits, point) := x.shortest
      sign ++ positional digits point

/-- What was found, as an error names it. -/
def unexpected : DocValue → String
  | null => "null"
  | boolean b => "boolean `" ++ toString b ++ "`"
  | integer i => "integer `" ++ toString i ++ "`"
  | float t => "floating point `" ++ floatText t ++ "`"
  | string s => "string " ++ quoted s
  | datetime _ => "map"
  | array _ => "sequence"
  | table _ => "map"

/-- The error for a value of the wrong type. -/
def mismatch (v : DocValue) (span : Span) (expected : String) : DecodeError :=
  ⟨"invalid type: " ++ v.unexpected ++ ", expected " ++ expected, span⟩

end DocValue

namespace Settings

/-- A string value. -/
def readText (expected : String) : DocValue × Span → Except DecodeError String
  | (.string s, _) => .ok s
  | (v, span) => .error (v.mismatch span expected)

/-- An array of strings. -/
def readTexts : DocValue × Span → Except DecodeError (List String)
  | (.array items, _) => items.mapM (readText "a string")
  | (v, span) => .error (v.mismatch span "a sequence")

/-- Read a section with one key: from a table by name, from an array by position. -/
def readSection {α : Type} (expected key : String) (default : α)
    (read : DocValue × Span → Except DecodeError α) : DocValue × Span → Except DecodeError α
  | (.table entries, _) =>
    entries.foldlM (fun acc (name, v, span) =>
      if name == key then read (v, span) else .ok acc) default
  | (.array items, _) =>
    match items with
    | [] => .ok default
    | item :: _ => read item
  | (.datetime _, _) => .ok default
  | (v, span) => .error (v.mismatch span expected)

/-- Read the `[build]` section. -/
def readBuild : DocValue × Span → Except DecodeError BuildSection :=
  fun v => BuildSection.mk <$>
    readSection "struct BuildSettings" "helper" ({} : BuildSection).helper
      (readText "path string") v

/-- Read the `[installer]` section. -/
def readInstaller : DocValue × Span → Except DecodeError InstallerSection :=
  fun v => InstallerSection.mk <$>
    readSection "struct InstallerSettings" "platform_tag" ({} : InstallerSection).platformTag
      (readText "a string") v

/-- Read the `[signing]` section. -/
def readSigning : DocValue × Span → Except DecodeError SigningSection :=
  fun v => SigningSection.mk <$>
    readSection "struct SigningSettings" "timestamp_servers"
      ({} : SigningSection).timestampServers readTexts v

/-- Store one key of the whole settings. -/
def readKey (acc : Settings) : String × DocValue × Span → Except DecodeError Settings
  | ("build", v, span) => do return { acc with build := ← readBuild (v, span) }
  | ("installer", v, span) => do return { acc with installer := ← readInstaller (v, span) }
  | ("signing", v, span) => do return { acc with signing := ← readSigning (v, span) }
  | _ => .ok acc

/-- Read the whole settings out of a document value. -/
def read : DocValue × Span → Except DecodeError Settings
  | (.table entries, _) => entries.foldlM readKey {}
  | (.array items, _) => do
    let build ← match items[0]? with
      | some item => readBuild item
      | none => pure {}
    let installer ← match items[1]? with
      | some item => readInstaller item
      | none => pure {}
    let signing ← match items[2]? with
      | some item => readSigning item
      | none => pure {}
    return ⟨build, installer, signing⟩
  | (v, span) => .error (v.mismatch span "struct Settings")

end Settings

end ReleaseBuild
