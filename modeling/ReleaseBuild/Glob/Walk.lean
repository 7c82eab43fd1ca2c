import ReleaseBuild.Path
import ReleaseBuild.Glob.Pattern
import ReleaseBuild.Host.FileTree
/-!
# Finding files by pattern

A pattern is matched against the file tree one path component at a time. The pattern is
split at its separators after an optional root; each piece is a pattern of its own that is
matched against the names of one directory level:

* a piece of literal characters is not matched against a listing: the path it names is kept
  when it exists (`.` and `..` when the current path is a directory);
* any other piece is matched against the names listed in the current directory, taken in the
  order of their characters, and a piece starting with a literal `.` may also match `.` and
  `..`;
* a `**` piece matches the current directory and every directory below it.

A relative pattern is walked from the working directory, and its results are relative paths
without a leading `./`. A pattern ending in a separator yields directories only. The paths
found are built by joining names with single separators.

The rest of the library searches through `PatternSearch`, whose instance is this walk, so that
what it proves of a search rests on named properties of the search rather than on the walk.
-/

namespace ReleaseBuild

namespace GlobWalk

/-- A path met during the walk, with whether it names a directory. -/
structure Visit where
  path : String
  isDir : Bool
  deriving DecidableEq, Repr

/-- The pieces of a pattern after its root: split at separators, a trailing separator adding
no piece. -/
def pieces (rest : String) : List String :=
  match (Path.chunks rest).reverse with
  | "" :: others => others.reverse
  | all => all.reverse

/-- Parse every piece. -/
def parsePieces (texts : List String) : Except PatternError (List GlobPattern) :=
  texts.mapM GlobPattern.parse

/-- The walk of one pattern over one tree, seen from one working directory. -/
structure Walk where
  tree : FileTree
  cwd : Location
  pieces : List GlobPattern
  requireDir : Bool

namespace Walk

/-- The visit of a path text. -/
def visit (w : Walk) (path : String) : Visit := ⟨path, w.tree.isDirectory? w.cwd path⟩

/-- A path one level below the current one. Below the working directory itself the name
stands alone. -/
def child (parent name : String) : String := if parent == "." then name else Path.join parent name

/-- Whether the walk has no piece after index `i`. -/
def isLast (w : Walk) (i : Nat) : Bool := i + 1 == w.pieces.length

/-- The index of the last `**` piece in the run of consecutive `**` pieces starting at `i`. -/
def runEnd (w : Walk) : Nat → Nat → Nat
  | 0, i => i
  | fuel + 1, i =>
    match w.pieces[i + 1]? with
    | some p => if p.recursive then runEnd w fuel (i + 1) else i
    | none => i

/-- Whether a piece starts with a literal dot. -/
def startsWithDot (p : GlobPattern) : Bool :=
  match p.tokens with
  | .char '.' :: _ => true
  | _ => false

/-- Whether a piece of index `i` is a `**`. -/
def isRecursiveAt (w : Walk) (i : Nat) : Bool :=
  match w.pieces[i]? with
  | some p => p.recursive
  | none => false

/-- A path that every piece has matched, kept unless a directory was required. -/
def finish (w : Walk) (v : Visit) : List String :=
  if w.requireDir && !v.isDir then [] else [v.path]

mutual

/-- The results reachable from the paths that piece `i` selects below `v`. -/
def expand (w : Walk) : Nat → Nat → Visit → List String
  | 0, _, _ => []
  | fuel + 1, i, v =>
    match w.pieces[i]? with
    | none => []
    | some p =>
      let accept (next : Visit) : List String :=
        if w.isLast i then finish w next else expand w fuel (i + 1) next
      match p.literalText? with
      | some s =>
        let special := s == "." || s == ".."
        let next := w.visit (child v.path s)
        if (special && v.isDir) || (!special && w.tree.exists? w.cwd next.path) then accept next
        else []
      | none =>
        if !v.isDir then []
        else
          match w.tree.readDir w.cwd v.path with
          | .error _ => []
          | .ok (_, names) =>
            let listed := (FileTree.sortNames names).flatMap fun name =>
              let c := child v.path name
              visitAt w fuel i (w.visit c)
            let specials :=
              if startsWithDot p then
                [".", ".."].flatMap fun s =>
                  if p.accepts s then accept (w.visit (Path.join v.path s)) else []
              else []
            listed ++ specials

/-- The results of a path that still has to be matched by piece `i`. -/
def visitAt (w : Walk) : Nat → Nat → Visit → List String
  | 0, _, _ => []
  | fuel + 1, i, v =>
    if w.isRecursiveAt i then
      let last := w.runEnd w.pieces.length i
      if v.isDir then
        let inside := expand w fuel last v
        if last + 1 == w.pieces.length then v.path :: inside
        else inside ++ matchName w fuel (last + 1) v
      else if last + 1 == w.pieces.length then []
      else matchName w fuel (last + 1) v
    else matchName w fuel i v

/-- The results of a path whose name piece `i` must match. -/
def matchName (w : Walk) : Nat → Nat → Visit → List String
  | 0, _, _ => []
  | fuel + 1, i, v =>
    match w.pieces[i]?, Path.fileName v.path with
    | some p, some name =>
      if p.accepts name then
        if w.isLast i then (if !w.requireDir || v.isDir then [v.path] else [])
        else expand w fuel (i + 1) v
      else []
    | _, _ => []

end

end Walk

/-- The length of the root of a pattern: one for an absolute pattern, none otherwise. -/
def rootLength (pattern : String) : Nat := if pattern.startsWith "/" then 1 else 0

/-- Every path the pattern matches, in no particular order, or the pattern's error. -/
def paths (tree : FileTree) (cwd : Location) (pattern : String) :
    Except PatternError (List String) := do
  let _ ← GlobPattern.parse pattern
  let root := rootLength pattern
  let scope := if root == 0 then "." else "/"
  let ps ← parsePieces (pieces (String.ofList (pattern.toList.drop root)))
  let w : Walk := ⟨tree, cwd, ps, pattern.endsWith "/"⟩
  if ps.isEmpty then return []
  let fuel := 4 * (ps.length + tree.entries.length + 4)
  return w.expand fuel 0 (w.visit scope)

end GlobWalk

/-- A search of the file tree by pattern, as the program uses the glob crate: the paths a pattern
finds in a tree from a working directory, or why the pattern cannot be read. -/
class PatternSearch where
  paths : FileTree → Location → String → Except PatternError (List String)

/-- The search this library implements: the walk above. -/
instance : PatternSearch := ⟨GlobWalk.paths⟩

end ReleaseBuild
