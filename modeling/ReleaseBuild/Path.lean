/-!
# Path text

Paths here are texts with `/` as separator, handled the way the standard path type of a Unix
program handles them: a path is read as a list of components (an optional root, a leading `.`
of a relative path, `..`, and names), repeated separators and inner `.` components carry no
meaning, and joining a relative path appends it while joining an absolute one replaces.

Main operations:
* `Path.components` reads the components of a text;
* `Path.join` appends, adding a separator only when one is needed;
* `Path.fileName` and `Path.parent` take a path apart;
* `Path.absolute` joins a relative path onto a working directory and normalises it without
  touching `..`, keeping a trailing separator, and refuses the empty path.
-/

namespace ReleaseBuild

/-- One component of a path. -/
inductive PathComponent where
  /-- The root of an absolute path. -/
  | root
  /-- A leading `.` of a relative path. -/
  | current
  /-- A `..` component. -/
  | parent
  /-- Any other non-empty component. -/
  | normal (name : String)
  deriving DecidableEq, Repr

namespace PathComponent

/-- The rank of the component's kind in the order of paths: the root first, then `.`, then
`..`, then names. -/
def rank : PathComponent → Nat
  | root => 0
  | current => 1
  | parent => 2
  | normal _ => 3

/-- Components compare by kind first and names by their characters. -/
def compare (a b : PathComponent) : Ordering :=
  match a, b with
  | normal x, normal y => Ord.compare x y
  | _, _ => Ord.compare a.rank b.rank

/-- The text of the component inside a path. -/
def text : PathComponent → String
  | root => "/"
  | current => "."
  | parent => ".."
  | normal name => name

end PathComponent

namespace Path

/-- The chunks of a path: the texts between its separators, empty ones included. -/
def chunks (p : String) : List String := (p.toList.splitOn '/').map String.ofList

/-- The components of the separator-free chunks of a path: empty chunks and `.` say nothing. -/
def chunkComponents (chunks : List String) : List PathComponent :=
  chunks.filterMap fun chunk =>
    if chunk.isEmpty || chunk == "." then none
    else if chunk == ".." then some .parent
    else some (.normal chunk)

/-- The components of a path: a root when it starts with `/`, a leading `.` of a relative path
when the first chunk is `.`, then one component per meaningful chunk. -/
def components (p : String) : List PathComponent :=
  match chunks p with
  | "" :: rest => if p.isEmpty then [] else .root :: chunkComponents rest
  | "." :: rest => .current :: chunkComponents rest
  | chunks => chunkComponents chunks

/-- Whether the path starts at the root. -/
def isAbsolute (p : String) : Bool := p.startsWith "/"

/-- Append `rel` to `base`: an absolute `rel` replaces `base`, and a separator is added only
when `base` is non-empty and does not already end with one. -/
def join (base rel : String) : String :=
  if isAbsolute rel then rel
  else if base.isEmpty || base.endsWith "/" then base ++ rel
  else base ++ "/" ++ rel

/-- Append several components in turn. -/
def joinAll (base : String) (parts : List String) : String :=
  parts.foldl join base

/-- The last component when it is a name; a path ending in `..`, the root or nothing has no
file name. A trailing separator or `.` is not a component, so `a/b/` names `b`. -/
def fileName (p : String) : Option String :=
  match (components p).getLast? with
  | some (.normal name) => some name
  | _ => none

/-- How many leading characters belong to the root or to a leading `.` of a relative path; the
body of the path starts after them. -/
def bodyStart (cs : List Char) : Nat :=
  match cs with
  | '/' :: _ => 1
  | ['.'] => 1
  | '.' :: '/' :: _ => 1
  | _ => 0

/-- The position after which the last chunk of the body starts, and that chunk. -/
def lastChunk (cs : List Char) (start : Nat) : Nat × List Char :=
  let body := cs.drop start
  match (body.reverse.findIdx? (· == '/')) with
  | some k => (cs.length - k - 1, body.reverse.take k |>.reverse)
  | none => (start, body)

/-- Drop trailing chunks that are empty or `.`, never reaching into the root or a leading `.`.
The fuel is the length of the text, which each step shortens. -/
def trimTrivial (start : Nat) : Nat → List Char → List Char
  | 0, cs => cs
  | fuel + 1, cs =>
    if cs.length ≤ start then cs
    else
      let (cut, chunk) := lastChunk cs start
      if chunk.isEmpty || chunk == ['.'] then trimTrivial start fuel (cs.take cut) else cs

/-- The path without its last component, as text: `a/b` gives `a`, `/a` gives `/`, `a` gives
the empty path and `.` too; the root and the empty path have no parent. -/
def parent (p : String) : Option String :=
  let cs := p.toList
  let start := bodyStart cs
  if cs.isEmpty then none
  else
    let t := trimTrivial start cs.length cs
    if t.length ≤ start then
      if isAbsolute p then none else some ""
    else
      let (cut, _) := lastChunk t start
      some (String.ofList (trimTrivial start cut (t.take cut)))

/-- The text of a component when it is pushed onto a path being rebuilt. -/
def pushText : PathComponent → Option String
  | .normal name => some name
  | .parent => some ".."
  | _ => none

/-- The message for the empty path, which has no absolute form. -/
def emptyPathMessage : String := "cannot make an empty path absolute"

/-- The absolute form of a path seen from `cwd`: a relative path is joined onto `cwd`, `.` and
repeated separators disappear, `..` stays, a trailing separator stays, and exactly two leading
separators are kept as they are. The empty path is refused. -/
def absolute (cwd p : String) : Except String String :=
  if p.isEmpty then .error emptyPathMessage
  else
    let base :=
      if isAbsolute p then
        if p.startsWith "//" && !p.startsWith "///" then "//" else "/"
      else cwd
    let rebuilt := joinAll base ((components p).filterMap pushText)
    .ok (if p.endsWith "/" && !rebuilt.endsWith "/" then rebuilt ++ "/" else rebuilt)

/-- The order of paths: component by component, a proper prefix first. -/
def compare (a b : String) : Ordering :=
  go (components a) (components b)
where
  go : List PathComponent → List PathComponent → Ordering
    | [], [] => .eq
    | [], _ :: _ => .lt
    | _ :: _, [] => .gt
    | x :: xs, y :: ys =>
      match x.compare y with
      | .eq => go xs ys
      | o => o

/-- Paths are equal as paths when they have the same components, whatever their separators. -/
def sameAs (a b : String) : Bool := components a == components b

end Path

end ReleaseBuild
