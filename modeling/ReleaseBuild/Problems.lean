import ReleaseBuild.Text
/-!
# Collected problems

Validation does not stop at the first fault: it collects every problem it finds, in the order
it checks them, and fails with all of them together. The problems are shown sorted by their
characters, so what an operator reads does not depend on the order of the checks; the
detection order is kept for anyone who needs it.
-/

namespace ReleaseBuild

/-- The problems found while validating a run's arguments, in detection order. -/
structure ValidationError where
  problems : List String := []
  deriving DecidableEq, Repr

namespace ValidationError

/-- Add one problem. -/
def push (e : ValidationError) (p : String) : ValidationError := ⟨e.problems ++ [p]⟩

/-- Add several problems in order. -/
def extend (e : ValidationError) (ps : List String) : ValidationError := ⟨e.problems ++ ps⟩

/-- No problem was found. -/
def isEmpty (e : ValidationError) : Bool := e.problems.isEmpty

/-- The problems sorted by their characters. -/
def sorted (e : ValidationError) : List String :=
  e.problems.mergeSort fun a b => decide (a ≤ b)

/-- Some problem contains the text. -/
def mentions (e : ValidationError) (needle : String) : Bool :=
  e.problems.any fun p => Text.contains p needle

/-- The error as text: `invalid arguments` and one line per sorted problem. -/
def message (e : ValidationError) : String :=
  "invalid arguments" ++ String.join (e.sorted.map fun p => "\n * " ++ p)

end ValidationError

end ReleaseBuild
