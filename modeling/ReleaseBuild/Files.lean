import ReleaseBuild.Path
import ReleaseBuild.Glob.Pattern
import ReleaseBuild.Glob.Walk
import ReleaseBuild.Machine
/-!
# File operations of a release

The release changes files only through these operations, each of which reports a failure
with what it attempted and the path it attempted it on:

* `ensureDir` creates a directory with its missing parents, unless something exists there;
  a creation that fails keeps the directories it made;
* `writeString` writes a whole file after ensuring its parent directory;
* `copyTo` copies a file to a destination path, taking the source's executable flag; the
  failure names the source, whichever side failed;
* `copyFile` copies a file into a directory under its own name;
* `globFiles` lists the regular files a pattern matches, sorted as paths;
* `copyMatching` and `copyAll` copy every matched file into a directory;
* `resetDirectory` empties a directory in place, or creates it when missing.
-/

namespace ReleaseBuild

namespace FileTree

/-- The failure of copying something that is not a file. -/
def notAFile : IoError :=
  .custom .invalidInput "the source path is neither a regular file nor a symlink to a regular file"

/-- Copy a file: open the source, open the destination with truncation, give it the source's
executable flag, then copy the source's text as it is after the truncation (so a file copied
onto itself ends up empty). -/
def copy (t : FileTree) (cwd : Location) (src dst : String) : Except IoError FileTree := do
  let (srcLoc, node) ← t.lookup cwd src
  match node with
  | .directory => .error notAFile
  | .file _ executable =>
    let (t, dstLoc) ← t.openTruncate cwd dst executable
    let t := t.setExecutable dstLoc executable
    let content := match t.get? srcLoc with
      | some (.file c _) => c
      | _ => ""
    .ok (t.setContent dstLoc content)

end FileTree

namespace Files

open ReleaseM

/-- Create a directory and its missing parents, unless something exists at the path. -/
def ensureDir (path : String) : ReleaseM Unit := do
  let m ← get
  if !m.files.exists? m.cwdLocation path then
    onFilesPartial "create directory" path fun t cwd => t.createDirAll cwd path

/-- Write a whole file, creating its parent directory first. -/
def writeString (path contents : String) : ReleaseM Unit := do
  if let some parent := Path.parent path then ensureDir parent
  onFiles "write file" path fun t cwd => (t.writeFile cwd path contents).map ((), ·)

/-- Copy a file to a destination path. -/
def copyTo (src dst : String) : ReleaseM Unit := do
  debug .files ("   " ++ src)
  onFiles "copy" src fun t cwd => (t.copy cwd src dst).map ((), ·)

/-- The failure of copying a path without a file name. -/
def noFileName : IoError := .custom .invalidInput "path has no file name"

/-- Copy a file into a directory, keeping its name; returns the new path. -/
def copyFile (src dstDir : String) : ReleaseM String := do
  match Path.fileName src with
  | none => fail (.filesystem "copy" src noFileName)
  | some name =>
    let dst := Path.join dstDir name
    copyTo src dst
    pure dst

/-- Paths sorted component by component. -/
def sortPaths (paths : List String) : List String :=
  paths.mergeSort fun a b => Path.compare a b != .gt

/-- The regular files a pattern matches, sorted. -/
def globFiles [PatternSearch] (pattern : String) : ReleaseM (List String) := do
  let m ← get
  match PatternSearch.paths m.files m.cwdLocation pattern with
  | .error e => fail (.pattern pattern e)
  | .ok found => pure (sortPaths (found.filter (m.files.isFile? m.cwdLocation)))

/-- Copy every matched file that `skip` does not reject into a directory; returns the new
paths in the order copied. -/
def copyMatching [PatternSearch] (pattern dstDir : String) (skip : String → Bool) :
    ReleaseM (List String) := do
  let sources ← globFiles pattern
  (sources.filter fun s => !skip s).mapM fun src => copyFile src dstDir

/-- Copy every regular file directly inside a directory. -/
def copyAll [PatternSearch] (srcDir dstDir : String) : ReleaseM (List String) :=
  copyMatching (Path.join (GlobPattern.escape srcDir) "*") dstDir fun _ => false

/-- Remove one entry of a directory being emptied. -/
def removeEntry (path : String) : ReleaseM Unit := do
  let m ← get
  if m.files.isDirectory? m.cwdLocation path then
    onFiles "remove directory" path fun t cwd => (t.removeDirAll cwd path).map ((), ·)
  else
    onFiles "remove file" path fun t cwd => (t.removeFile cwd path).map ((), ·)

/-- Empty a directory in place, or create it when missing. -/
def resetDirectory (path : String) : ReleaseM Unit := do
  let m ← get
  if !m.files.exists? m.cwdLocation path then
    onFilesPartial "create directory" path fun t cwd => t.createDirAll cwd path
  else
    let names ← onFiles "read directory" path fun t cwd =>
      (t.readDir cwd path).map fun (_, names) => (names, t)
    names.forM fun name => removeEntry (Path.join path name)

end Files

end ReleaseBuild
