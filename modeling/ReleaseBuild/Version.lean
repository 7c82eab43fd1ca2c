/-!
# Release versions

A release version is written `major.minor` or `major.minor.build`: two or three non-empty runs
of ASCII digits joined by dots, and nothing else, not even a trailing newline. The version
resource downstream keeps major and minor in one byte each and the build number in two bytes,
hence the bounds `major < 256`, `minor < 256` and `build < 65536`.

Parsing reports every part that is out of range, in the order major, minor, build, with the
unbounded decimal value of the digits (leading zeros allowed), so a part too large for any
machine word is simply out of range. A version keeps the text exactly as typed: it names the
build root and fills the string defines, so `1.0`, `01.0` and `1.0.0` are different versions
with the same numbers.
-/

namespace ReleaseBuild

/-- The three numbered parts of a version. -/
inductive VersionPart where
  | major
  | minor
  | build
  deriving DecidableEq, Repr

namespace VersionPart

/-- The word naming the part in messages. -/
def name : VersionPart → String
  | major => "major"
  | minor => "minor"
  | build => "build"

/-- The exclusive upper bound of the part: one byte for major and minor, two for the build. -/
def limit : VersionPart → Nat
  | major => 256
  | minor => 256
  | build => 65536

end VersionPart

/-- Why a version text was refused. -/
inductive VersionProblem where
  /-- The text is not two or three dot-separated runs of ASCII digits. -/
  | malformed (text : String)
  /-- The part has a value at or above its limit. -/
  | outOfRange (text : String) (part : VersionPart)
  deriving DecidableEq, Repr

namespace VersionProblem

/-- The operator-facing sentence for the problem, quoting the text as typed. -/
def message : VersionProblem → String
  | malformed text =>
    "Invalid version \"" ++ text ++ "\": version format must be \"major.minor\" or " ++
      "\"major.minor.build\", where each version element is a number"
  | outOfRange text part =>
    "Invalid version \"" ++ text ++ "\": " ++ part.name ++
      " version number must be less than " ++ toString part.limit

end VersionProblem

/-- A validated version: its three numbers within their bounds and the text as typed. The
build number is `0` when the text has only two parts. -/
structure Version where
  major : Nat
  minor : Nat
  build : Nat
  text : String
  major_lt : major < 256
  minor_lt : minor < 256
  build_lt : build < 65536
  deriving DecidableEq, Repr

namespace Version

/-- The value of a run of decimal digits, leading zeros allowed and no bound. -/
def digitValue (digits : List Char) : Nat :=
  digits.foldl (fun n c => 10 * n + (c.toNat - '0'.toNat)) 0

/-- A non-empty run of ASCII digits. -/
def isDigitRun (cs : List Char) : Bool :=
  !cs.isEmpty && cs.all Char.isDigit

/-- The numbers of a text of the right shape: major, minor and the build if it is written.
`none` when the text is not two or three dot-separated runs of ASCII digits. -/
def shape (text : String) : Option (Nat × Nat × Option Nat) :=
  match text.toList.splitOn '.' with
  | [m, n] =>
    if isDigitRun m && isDigitRun n then some (digitValue m, digitValue n, none) else none
  | [m, n, b] =>
    if isDigitRun m && isDigitRun n && isDigitRun b then
      some (digitValue m, digitValue n, some (digitValue b))
    else none
  | _ => none

/-- The parts whose values reach their limits, in the order major, minor, build. -/
def partsOutOfRange (major minor build : Nat) : List VersionPart :=
  [(VersionPart.major, major), (VersionPart.minor, minor), (VersionPart.build, build)].filterMap
    fun (part, value) => if part.limit ≤ value then some part else none

/-- Read a version, reporting a malformed text once or every part out of range. -/
def parse (text : String) : Except (List VersionProblem) Version :=
  match shape text with
  | none => .error [.malformed text]
  | some (major, minor, build) =>
    let build := build.getD 0
    if h : major < 256 ∧ minor < 256 ∧ build < 65536 then
      .ok ⟨major, minor, build, text, h.1, h.2.1, h.2.2⟩
    else
      .error ((partsOutOfRange major minor build).map (VersionProblem.outOfRange text))

/-- The comma-joined numbers used by resource scripts, such as `1,2,0`. -/
def numericList (v : Version) : String :=
  toString v.major ++ "," ++ toString v.minor ++ "," ++ toString v.build

end Version

end ReleaseBuild
