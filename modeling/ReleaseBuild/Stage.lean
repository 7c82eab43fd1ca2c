/-!
# Stage selection

A run builds the drivers and utilities, packages the installer, or both. The operator selects
stages with a string of tokens: `b` builds, `i` packages, and `a` selects both whatever else is
present. Any other character makes the specification invalid, but validation still reads the
known tokens of an invalid string, so the two readings are kept apart: `StageSet.ofTokens`
reads what it can, and `StageSet.parse` refuses what it cannot.
-/

namespace ReleaseBuild

/-- Which stages a run executes. The two flags are independent. -/
structure StageSet where
  build : Bool
  package : Bool
  deriving DecidableEq, Repr

namespace StageSet

/-- Both stages. -/
def all : StageSet := ⟨true, true⟩

/-- The stages named by the known tokens of the text, ignoring any other character. -/
def ofTokens (spec : String) : StageSet :=
  if spec.contains 'a' then all else ⟨spec.contains 'b', spec.contains 'i'⟩

/-- A stage token: `a`, `b` or `i`. -/
def isToken (c : Char) : Bool := c == 'a' || c == 'b' || c == 'i'

/-- The message for a specification holding a character that is not a token. -/
def invalidMessage (spec : String) : String :=
  "Invalid stage specification \"" ++ spec ++ "\""

/-- Read a stage specification, refusing any character that is not a token. -/
def parse (spec : String) : Except String StageSet :=
  if spec.all isToken then .ok (ofTokens spec) else .error (invalidMessage spec)

/-- No stage is selected. -/
def isEmpty (s : StageSet) : Bool := !s.build && !s.package

end StageSet

end ReleaseBuild
