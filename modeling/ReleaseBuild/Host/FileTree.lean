import ReleaseBuild.Path
import ReleaseBuild.Host.IoError
/-!
# The file tree

The files a release reads and writes form a tree of directories and files. An entry is
located by its list of names from the root, so `/a/b` is `["a", "b"]`; the root is always a
directory and is not stored. A file has a text and an executable flag.

Paths are texts that are resolved against a working directory the way a POSIX kernel does:
an absolute path starts at the root, a relative one at the working directory; empty names
and `.` stay where they are, `..` goes to the parent (the root is its own parent); every name
before the last must be an existing directory (`No such file or directory` when it is missing,
`Not a directory` when it is a file); and a path that ends in `/` must name a directory.

The operations here are the system calls that the rest of the library is built on: reading
the kind of an entry, creating a directory, opening a file for writing with truncation,
listing a directory and removing entries. Each fails with the error number the kernel reports.

A directory lists its names in no order of its own: here in the order the tree holds its
entries, so a statement about every tree is one about every listing order. Creating a
directory with its parents is a sequence of such calls that stops at the first failure, and
the directories made before it stay.
-/

namespace ReleaseBuild

/-- An entry of the file tree. -/
inductive Node where
  | directory
  | file (content : String) (executable : Bool)
  deriving DecidableEq, Repr

/-- The location of an entry: its names from the root. -/
abbrev Location := List String

/-- A file tree: the location and kind of every entry but the root, in the order a listing of
their directory gives them. -/
structure FileTree where
  entries : List (Location × Node) := []
  deriving DecidableEq, Repr

/-- Where a path leads: an existing directory and, unless the path names that directory
itself, the last name looked up in it. `slash` records a trailing separator. -/
structure Target where
  dir : Location
  leaf : Option String
  slash : Bool
  deriving DecidableEq, Repr

namespace Target

/-- The location the path names. -/
def location (t : Target) : Location := t.dir ++ t.leaf.toList

end Target

namespace Node

/-- Whether the entry is a directory. -/
def isDirectory : Node → Bool
  | directory => true
  | file .. => false

/-- Whether the entry is a file. -/
def isFile : Node → Bool
  | directory => false
  | file .. => true

end Node

namespace FileTree

/-- The entry at a location; the root is a directory. -/
def get? (t : FileTree) (loc : Location) : Option Node :=
  if loc.isEmpty then some .directory else (t.entries.find? (·.1 == loc)).map (·.2)

/-- Store an entry at a location, replacing what was there. -/
def put (t : FileTree) (loc : Location) (n : Node) : FileTree :=
  ⟨t.entries.filter (·.1 != loc) ++ [(loc, n)]⟩

/-- Remove an entry and everything below it. -/
def removeTree (t : FileTree) (loc : Location) : FileTree :=
  ⟨t.entries.filter fun e => !loc.isPrefixOf e.1⟩

/-- The names directly inside a directory, in the order the directory lists them. -/
def childNames (t : FileTree) (loc : Location) : List String :=
  t.entries.filterMap fun e =>
    if e.1.length == loc.length + 1 && loc.isPrefixOf e.1 then e.1.getLast? else none

/-- Names sorted by their characters, as a listing is shown when its order matters. -/
def sortNames (names : List String) : List String :=
  names.mergeSort fun a b => decide (a ≤ b)

/-- Every entry strictly below a location, with its location relative to it. -/
def below (t : FileTree) (loc : Location) : List (Location × Node) :=
  t.entries.filterMap fun e =>
    if loc.isPrefixOf e.1 && loc.length < e.1.length then some (e.1.drop loc.length, e.2)
    else none

/-- The names of a path text, split at every separator. -/
def chunks (path : String) : List String := Path.chunks path

/-- The location of a directory given as an absolute path text, with `.` and `..` resolved
by names alone. -/
def locationOf (path : String) : Location :=
  (chunks path).foldl (fun acc c =>
    if c == "" || c == "." then acc else if c == ".." then acc.dropLast else acc ++ [c]) []

/-- Walk through the directories named by a list of names, starting in `dir`. -/
def walk (t : FileTree) : Location → List String → Except IoError Location
  | dir, [] => .ok dir
  | dir, c :: cs =>
    if c == "" || c == "." then walk t dir cs
    else if c == ".." then walk t dir.dropLast cs
    else
      match t.get? (dir ++ [c]) with
      | some .directory => walk t (dir ++ [c]) cs
      | some (.file ..) => .error .notADirectory
      | none => .error .notFound

/-- The names of a path without the empty names that trailing separators leave. -/
def trimmedChunks (path : String) : List String :=
  ((chunks path).reverse.dropWhile (· == "")).reverse

/-- Resolve a path text against a working directory. The empty path names nothing. -/
def resolve (t : FileTree) (cwd : Location) (path : String) : Except IoError Target :=
  if path.isEmpty then .error .notFound
  else
    let start := if path.startsWith "/" then [] else cwd
    let slash := path.endsWith "/"
    let parts := trimmedChunks path
    match parts.getLast? with
    | none => .ok ⟨[], none, true⟩
    | some last => do
      let dir ← walk t start parts.dropLast
      if last == "" || last == "." then .ok ⟨dir, none, slash⟩
      else if last == ".." then .ok ⟨dir.dropLast, none, slash⟩
      else .ok ⟨dir, some last, slash⟩

/-- The entry a path names, and its location. A file named with a trailing separator is
`Not a directory`. -/
def lookup (t : FileTree) (cwd : Location) (path : String) : Except IoError (Location × Node) := do
  let target ← t.resolve cwd path
  match t.get? target.location with
  | none => .error .notFound
  | some (.file c x) =>
    if target.slash then .error .notADirectory else .ok (target.location, .file c x)
  | some .directory => .ok (target.location, .directory)

/-- The kind of entry a path names. -/
def stat (t : FileTree) (cwd : Location) (path : String) : Except IoError Node :=
  (t.lookup cwd path).map (·.2)

/-- Whether a path names an entry. -/
def exists? (t : FileTree) (cwd : Location) (path : String) : Bool :=
  match t.stat cwd path with
  | .ok _ => true
  | .error _ => false

/-- Whether a path names a file. -/
def isFile? (t : FileTree) (cwd : Location) (path : String) : Bool :=
  match t.stat cwd path with
  | .ok n => n.isFile
  | .error _ => false

/-- Whether a path names a directory. -/
def isDirectory? (t : FileTree) (cwd : Location) (path : String) : Bool :=
  match t.stat cwd path with
  | .ok n => n.isDirectory
  | .error _ => false

/-- Create one directory. An existing entry of any kind is `File exists`. -/
def makeDir (t : FileTree) (cwd : Location) (path : String) : Except IoError FileTree := do
  let target ← t.resolve cwd path
  match target.leaf with
  | none => .error .alreadyExists
  | some _ =>
    match t.get? target.location with
    | some _ => .error .alreadyExists
    | none => .ok (t.put target.location .directory)

/-- Open a file for writing, creating it with the given executable flag or truncating it.
Returns the tree with the empty file and the file's location. A directory is
`Is a directory`; so is a new name written with a trailing separator. -/
def openTruncate (t : FileTree) (cwd : Location) (path : String) (executable : Bool) :
    Except IoError (FileTree × Location) := do
  let target ← t.resolve cwd path
  match target.leaf with
  | none => .error .isADirectory
  | some _ =>
    let loc := target.location
    match t.get? loc with
    | some .directory => .error .isADirectory
    | some (.file _ x) =>
      if target.slash then .error .notADirectory else .ok (t.put loc (.file "" x), loc)
    | none =>
      if target.slash then .error .isADirectory else .ok (t.put loc (.file "" executable), loc)

/-- Open a file for appending, creating it when missing. Returns the file's location and
its current text. -/
def openAppend (t : FileTree) (cwd : Location) (path : String) :
    Except IoError (FileTree × Location × String) := do
  let target ← t.resolve cwd path
  match target.leaf with
  | none => .error .isADirectory
  | some _ =>
    let loc := target.location
    match t.get? loc with
    | some .directory => .error .isADirectory
    | some (.file c _) => if target.slash then .error .notADirectory else .ok (t, loc, c)
    | none =>
      if target.slash then .error .isADirectory else .ok (t.put loc (.file "" false), loc, "")

/-- Replace the text of an existing file, keeping its executable flag. -/
def setContent (t : FileTree) (loc : Location) (content : String) : FileTree :=
  match t.get? loc with
  | some (.file _ x) => t.put loc (.file content x)
  | _ => t

/-- Set the executable flag of an existing file. -/
def setExecutable (t : FileTree) (loc : Location) (executable : Bool) : FileTree :=
  match t.get? loc with
  | some (.file c _) => t.put loc (.file c executable)
  | _ => t

/-- Write a whole file: open it with truncation, then store the text. -/
def writeFile (t : FileTree) (cwd : Location) (path : String) (content : String) :
    Except IoError FileTree := do
  let (t, loc) ← t.openTruncate cwd path false
  .ok (t.setContent loc content)

/-- The names inside a directory, in the order it lists them. -/
def readDir (t : FileTree) (cwd : Location) (path : String) :
    Except IoError (Location × List String) := do
  let (loc, n) ← t.lookup cwd path
  match n with
  | .directory => .ok (loc, t.childNames loc)
  | .file .. => .error .notADirectory

/-- Remove a file. A directory is `Is a directory`. -/
def removeFile (t : FileTree) (cwd : Location) (path : String) : Except IoError FileTree := do
  let (loc, n) ← t.lookup cwd path
  match n with
  | .directory => .error .isADirectory
  | .file .. => .ok (t.removeTree loc)

/-- Remove a directory with everything in it. -/
def removeDirAll (t : FileTree) (cwd : Location) (path : String) : Except IoError FileTree := do
  let (loc, n) ← t.lookup cwd path
  match n with
  | .directory => .ok (t.removeTree loc)
  | .file .. => .error .notADirectory

/-- Create a directory and every missing directory above it. The empty path needs nothing.
A directory that is missing its parent is created after the parent; an existing directory is
fine, and any other failure is reported as it happened, with the tree as it was then: the
directories made before the failure stay. The fuel is the length of the path, which every step
to a parent shortens. -/
def makeDirAllFuel (cwd : Location) :
    Nat → FileTree → String → Except (IoError × FileTree) FileTree
  | 0, t, _ => .ok t
  | fuel + 1, t, path =>
    if path.isEmpty then .ok t
    else
      match t.makeDir cwd path with
      | .ok t' => .ok t'
      | .error e =>
        if e == .notFound then
          match Path.parent path with
          | some p => do
            let t' ← makeDirAllFuel cwd fuel t p
            match t'.makeDir cwd path with
            | .ok t'' => .ok t''
            | .error e' => if t'.isDirectory? cwd path then .ok t' else .error (e', t')
          | none => .error (.custom .uncategorized "failed to create whole tree", t)
        else if t.isDirectory? cwd path then .ok t
        else .error (e, t)

/-- Create a directory and every missing directory above it. -/
def makeDirAll (t : FileTree) (cwd : Location) (path : String) :
    Except (IoError × FileTree) FileTree :=
  makeDirAllFuel cwd (path.length + 1) t path

/-- Create a directory with its parents as one step on the tree: how it ended, and the tree it
left. -/
def createDirAll (t : FileTree) (cwd : Location) (path : String) :
    Except IoError Unit × FileTree :=
  match t.makeDirAll cwd path with
  | .ok t' => (.ok (), t')
  | .error (e, t') => (.error e, t')

/-- Everything below a directory as `(relative path, text)` pairs in the tree's order: a
directory's path ends in `/` and has no text. -/
def listing (t : FileTree) (loc : Location) : List (String × Option String) :=
  (t.below loc).map fun (rel, n) =>
    match n with
    | .directory => ("/".intercalate rel ++ "/", none)
    | .file c _ => ("/".intercalate rel, some c)

end FileTree

end ReleaseBuild
