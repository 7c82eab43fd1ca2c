import ReleaseBuild.Cli.Program
import Std.Time.Format
/-!
# The command line

The program is a function of its arguments, its environment and the files it can see
(`runProgram`). This module is the thin layer that gathers them from the machine, runs it,
and puts the result back:

* the environment variables the program and its tools read are taken from the process;
* the directories the run can touch (the working directory, the directory of the
  executable, the script and output directories, the directory of the certificate, and the
  Program Files and driver kit directories) are read into one file tree;
* after the run, every entry that the run created, changed or removed is written back, and
  what the run printed goes to standard output and standard error.

The file system of this layer tells files from directories but not who may execute a file;
a file counts as executable when it starts with the interpreter line `#!`, which is how the
scripts a release starts are written.
-/

namespace ReleaseBuild

open System

namespace Main

/-- The environment variables the program and the tools it starts read. -/
def knownVariables : List String :=
  ["PATH", "HOME", "USER", "LANG", "TMPDIR", "SHELL", "RUST_LOG", "NO_COLOR", scriptDirVariable,
    wdkPathVariable, "HONE_SIGN_LOG"] ++ programFilesVariables

/-- At most this many entries are read into the file tree. -/
def entryLimit : Nat := 200000

/-- At most this many directories deep is a root read. -/
def depthLimit : Nat := 24

/-- The text of a path. -/
def pathText (loc : Location) : String := "/" ++ "/".intercalate loc

/-- The text of a file's bytes: as UTF-8 when they are, else byte by byte. -/
def decodeBytes (bytes : ByteArray) : String :=
  match String.fromUTF8? bytes with
  | some s => s
  | none => String.ofList (bytes.toList.map fun b => Char.ofNat b.toNat)

/-- Read a directory and everything below it into the tree. -/
partial def readBelow (loc : Location) (depth : Nat) (t : FileTree) : IO FileTree := do
  if depth == 0 || t.entries.length ≥ entryLimit then return t
  let entries ← match ← (FilePath.mk (pathText loc)).readDir.toBaseIO with
    | .ok es => pure es
    | .error _ => pure #[]
  let mut t := t
  for e in entries do
    let here := loc ++ [e.fileName]
    let kind ← match ← e.path.symlinkMetadata.toBaseIO with
      | .ok m => pure (some m.type)
      | .error _ => pure none
    match kind with
    | some .dir =>
      if t.get? here |>.isNone then t := t.put here .directory
      t ← readBelow here (depth - 1) t
    | some .file =>
      if t.get? here |>.isNone then
        match ← (IO.FS.readBinFile e.path).toBaseIO with
        | .ok bytes =>
          let text := decodeBytes bytes
          t := t.put here (.file text (text.startsWith "#!"))
        | .error _ => pure ()
    | _ => pure ()
  return t

/-- Read a root into the tree: the directories leading to it, and what is below it. -/
def readRoot (t : FileTree) (loc : Location) : IO FileTree := do
  if ← (FilePath.mk (pathText loc)).isDir then
    let mut t := t
    for n in [1:loc.length + 1] do
      if t.get? (loc.take n) |>.isNone then t := t.put (loc.take n) .directory
    readBelow loc depthLimit t
  else return t

/-- Put one entry of the tree on the machine. -/
def writeEntry (loc : Location) (n : Node) : IO Unit := do
  let path := FilePath.mk (pathText loc)
  match n with
  | .directory => IO.FS.createDirAll path
  | .file content executable =>
    IO.FS.writeFile path content
    if executable then
      IO.setAccessRights path ⟨⟨true, true, true⟩, ⟨true, false, true⟩, ⟨true, false, true⟩⟩

/-- Make the machine show the tree after a run, given the tree before it: remove what is
gone, then create or write what is new or changed, in the order the run made it. -/
def writeBack (before after : FileTree) : IO Unit := do
  let gone := before.entries.filter fun (loc, _) => (after.get? loc).isNone
  for (loc, n) in gone.reverse do
    let path := FilePath.mk (pathText loc)
    let _ ← (match n with
      | .directory => IO.FS.removeDirAll path
      | .file .. => IO.FS.removeFile path).toBaseIO
  for (loc, n) in after.entries do
    if before.get? loc != some n then
      match ← (writeEntry loc n).toBaseIO with
      | .ok () => pure ()
      | .error e => IO.eprintln ("cannot write " ++ pathText loc ++ ": " ++ toString e)

/-- The local time as the program reads it. -/
def timestampOf (n : Std.Time.PlainDateTime) : Timestamp :=
  ⟨n.date.year.toInt, n.date.month.val.toNat, n.date.day.val.toNat, n.time.hour.val.toNat,
    n.time.minute.val.toNat, n.time.second.val.toNat, n.time.nanosecond.val.toNat⟩

/-- The directories a run of this command line can touch, as paths. -/
def rootsOf (l : Launch) : List String :=
  let given := match ArgumentReader.read l.args (l.getEnv? scriptDirVariable) with
    | .ok (.run c) =>
      c.scriptDir.toList ++ c.output.toList ++ (c.certFile.bind Path.parent).toList
    | _ => []
  let tools := (programFilesVariables ++ [wdkPathVariable]).filterMap fun v =>
    (l.getEnv? v).filter (!·.isEmpty)
  let executable := match l.executableDir with
    | .found dir => [dir]
    | .unknown _ => []
  [l.cwd] ++ executable ++ given ++ tools

end Main

end ReleaseBuild

open ReleaseBuild ReleaseBuild.Main in
/-- Run the command with the arguments it was given, on this machine. -/
def main (args : List String) : IO UInt32 := do
  let cwd := toString (← IO.currentDir)
  -- the executable's directory, or why the system cannot tell it
  let executableDir : ExecutableDir := match ← IO.appPath.toBaseIO with
    | .ok app =>
      let loc := FileTree.locationOf (toString app)
      if loc.isEmpty then .unknown "executable has no parent directory"
      else .found (pathText loc.dropLast)
    | .error e => .unknown ("failed to locate the running executable: " ++ toString e)
  let mut environment := []
  for v in knownVariables do
    if let some x ← IO.getEnv v then environment := environment ++ [(v, x)]
  let now ← Std.Time.PlainDateTime.now
  let l : Launch := ⟨args, environment, cwd, executableDir, timestampOf now⟩
  let mut files : FileTree := {}
  for root in rootsOf l do
    files ← readRoot files (FileTree.locationOf (Path.join cwd root))
  let o := runProgramOn (← (← IO.getStderr).isTty) l files
  writeBack files o.files
  IO.print o.stdout
  IO.eprint o.stderr
  (← IO.getStdout).flush
  return o.code.toUInt32
