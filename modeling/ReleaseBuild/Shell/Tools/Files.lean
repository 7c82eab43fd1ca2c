import ReleaseBuild.Shell.Tool
/-!
# Programs that work on files

`ls`, `mkdir`, `touch`, `cp`, `mv`, `ln`, `rm`, `rmdir`, `chmod`, `tee` and `pwd`, on the file tree.
Names are listed in byte order, as in the C locale; a listing written to a pipe or a file has
one name per line.
-/

namespace ReleaseBuild

namespace Shell

open ToolM

/-- Copy the entries below one location to another, replacing what was there. -/
def copyEntries (t : FileTree) (src dst : Location) : FileTree :=
  let moved := (t.below src).map fun (rel, n) => (dst ++ rel, n)
  let base := match t.get? src with
    | some n => (t.removeTree dst).put dst n
    | none => t
  moved.foldl (fun acc (loc, n) => acc.put loc n) base

/-- Move an entry and everything below it to another location. -/
def moveEntries (t : FileTree) (src dst : Location) : FileTree :=
  (copyEntries t src dst).removeTree src

/-- The names `ls` shows in a directory: without hidden names unless `all` (`-A`) or
`dots` (`-a`, which adds `.` and `..`). -/
def listedNames (t : FileTree) (loc : Location) (all dots : Bool) : List String :=
  let names := FileTree.sortNames (t.childNames loc)
  let names := if all || dots then names else names.filter fun n => !n.startsWith "."
  if dots then ("." :: ".." :: names).mergeSort fun a b => decide (a ≤ b) else names

/-- `ls [-aAd1] FILE…`. -/
def lsTool : Tool := do
  let (flags, operands) := splitOptions (← ToolM.args)
  let t ← ToolM.files
  let here ← ToolM.cwd
  let all := flags.contains 'A'
  let dots := flags.contains 'a'
  let names := if operands.isEmpty then ["."] else operands
  let mut singles : Array String := #[]
  let mut dirs : Array (String × Location) := #[]
  for name in names do
    match t.lookup here name with
    | .ok (loc, .directory) =>
      if flags.contains 'd' then singles := singles.push name else dirs := dirs.push (name, loc)
    | .ok (_, .file ..) => singles := singles.push name
    | .error e => complainWith 2 ("cannot access " ++ quoteName name ++ ": " ++ e.reason)
  let plain := singles.toList.mergeSort fun a b => decide (a ≤ b)
  let listed := dirs.toList.mergeSort fun a b => decide (a.1 ≤ b.1)
  out (unlines plain)
  let headed := names.length > 1
  let mut first := plain.isEmpty
  for (name, loc) in listed do
    if !first then out "\n"
    first := false
    if headed then out (name ++ ":\n")
    out (unlines (listedNames t loc all dots))

/-- `mkdir [-p] [-m MODE] DIR…`. -/
def mkdirTool : Tool := do
  let args ← ToolM.args
  let rec strip : Nat → List String → Bool → List String → Bool × List String
    | 0, _, p, acc => (p, acc)
    | _ + 1, [], p, acc => (p, acc)
    | n + 1, a :: rest, p, acc =>
      if a == "-m" then strip n (rest.drop 1) p acc
      else if a == "--" then (p, acc ++ rest)
      else if a.startsWith "-" && a.length > 1 then
        strip n rest (p || (a.toList.drop 1).contains 'p') acc
      else strip n rest p (acc ++ [a])
  let (parents, dirs) := strip (args.length + 1) args false []
  if dirs.isEmpty then complain "missing operand"
  for d in dirs do
    let t ← ToolM.files
    let here ← ToolM.cwd
    -- with parents, the directories made before a failure stay
    let (result, t') := if parents then t.createDirAll here d
      else match t.makeDir here d with
        | .ok t' => (.ok (), t')
        | .error e => (.error e, t)
    setFiles t'
    match result with
    | .ok () => pure ()
    | .error e => complain ("cannot create directory " ++ quoteName d ++ ": " ++ e.reason)

/-- `touch FILE…`: create missing files. -/
def touchTool : Tool := do
  let (_, operands) := splitOptions (← ToolM.args)
  if operands.isEmpty then complain "missing file operand"
  for name in operands do
    let t ← ToolM.files
    let here ← ToolM.cwd
    if !t.exists? here name then
      match t.openTruncate here name false with
      | .ok (t', _) => setFiles t'
      | .error e => complain ("cannot touch " ++ quoteName name ++ ": " ++ e.reason)

/-- `rm [-rf] FILE…`. -/
def rmTool : Tool := do
  let (flags, operands) := splitOptions (← ToolM.args)
  let force := flags.contains 'f'
  let recursive := flags.contains 'r' || flags.contains 'R'
  if operands.isEmpty && !force then complain "missing operand"
  for name in operands do
    let t ← ToolM.files
    let here ← ToolM.cwd
    match t.lookup here name with
    | .ok (loc, .directory) =>
      if recursive then setFiles (t.removeTree loc)
      else complain ("cannot remove " ++ quoteName name ++ ": Is a directory")
    | .ok (loc, .file ..) => setFiles (t.removeTree loc)
    | .error e => if !force then complain ("cannot remove " ++ quoteName name ++ ": " ++ e.reason)

/-- `rmdir DIR…`: remove empty directories. -/
def rmdirTool : Tool := do
  let (_, operands) := splitOptions (← ToolM.args)
  if operands.isEmpty then complain "missing operand"
  for name in operands do
    let t ← ToolM.files
    match t.lookup (← ToolM.cwd) name with
    | .ok (loc, .directory) =>
      if (t.childNames loc).isEmpty then setFiles (t.removeTree loc)
      else complain ("failed to remove " ++ quoteName name ++ ": Directory not empty")
    | .ok (_, .file ..) => complain ("failed to remove " ++ quoteName name ++ ": Not a directory")
    | .error e => complain ("failed to remove " ++ quoteName name ++ ": " ++ e.reason)

/-- Where a copied or moved source lands: inside the destination when it is a directory. -/
def landing (t : FileTree) (here : Location) (src dst : String) : String :=
  if t.isDirectory? here dst then Path.join dst (baseName src) else dst

/-- `cp [-r] SOURCE… DEST`. -/
def cpTool : Tool := do
  let (flags, operands) := splitOptions (← ToolM.args)
  let recursive := flags.contains 'r' || flags.contains 'R' || flags.contains 'a'
  match operands.reverse with
  | [] => complain "missing file operand"
  | [src] => complain ("missing destination file operand after " ++ quoteName src)
  | dst :: srcsReversed =>
    let sources := srcsReversed.reverse
    let here ← ToolM.cwd
    if sources.length > 1 && !(← ToolM.files).isDirectory? here dst then
      complain ("target " ++ quoteName dst ++ " is not a directory")
    else
      for src in sources do
        let t ← ToolM.files
        match t.lookup here src with
        | .error e => complain ("cannot stat " ++ quoteName src ++ ": " ++ e.reason)
        | .ok (srcLoc, .directory) =>
          if !recursive then complain ("-r not specified; omitting directory " ++ quoteName src)
          else
            let target := landing t here src dst
            match t.resolve here target with
            | .ok tgt =>
              if (t.get? tgt.dir).isSome then setFiles (copyEntries t srcLoc tgt.location)
              else complain ("cannot create directory " ++ quoteName target ++ ": No such file or directory")
            | .error e => complain ("cannot create directory " ++ quoteName target ++ ": " ++ e.reason)
        | .ok (_, .file content x) =>
          let target := landing t here src dst
          let existed := t.exists? here target
          match t.openTruncate here target x with
          | .ok (t', loc) =>
            let t' := t'.setContent loc content
            setFiles (if existed then t' else t'.setExecutable loc x)
          | .error e => complain ("cannot create regular file " ++ quoteName target ++ ": " ++ e.reason)

/-- `mv SOURCE… DEST`. -/
def mvTool : Tool := do
  let (_, operands) := splitOptions (← ToolM.args)
  match operands.reverse with
  | [] => complain "missing file operand"
  | [src] => complain ("missing destination file operand after " ++ quoteName src)
  | dst :: srcsReversed =>
    let here ← ToolM.cwd
    for src in srcsReversed.reverse do
      let t ← ToolM.files
      match t.lookup here src with
      | .error e => complain ("cannot stat " ++ quoteName src ++ ": " ++ e.reason)
      | .ok (srcLoc, _) =>
        let target := landing t here src dst
        match t.resolve here target with
        | .ok tgt =>
          if (t.get? tgt.dir).isSome then setFiles (moveEntries t srcLoc tgt.location)
          else complain ("cannot move " ++ quoteName src ++ " to " ++ quoteName target ++ ": No such file or directory")
        | .error e =>
          complain ("cannot move " ++ quoteName src ++ " to " ++ quoteName target ++ ": " ++ e.reason)

/-- `ln [-sf] TARGET… LINK`: make links. The file tree holds no links, so a link is a copy of
what it points to when it is made. A symbolic link's target is read from the directory the
link is in, and one that points nowhere leaves nothing behind; a hard link's target is read
from the working directory. With one operand the link goes into the working directory. -/
def lnTool : Tool := do
  let (flags, operands) := splitOptions (← ToolM.args)
  let symbolic := flags.contains 's'
  let kind := if symbolic then "symbolic link" else "hard link"
  let (sources, dst) := match operands.reverse with
    | [src] => ([src], ".")
    | dst :: srcsReversed => (srcsReversed.reverse, dst)
    | [] => ([], ".")
  let here ← ToolM.cwd
  if sources.isEmpty then complain "missing file operand"
  else if sources.length > 1 && !(← ToolM.files).isDirectory? here dst then
    complain ("target " ++ quoteName dst ++ " is not a directory")
  else
    for src in sources do
      let t ← ToolM.files
      let target := landing t here src dst
      let pointed := if symbolic && !src.startsWith "/" then Path.join (dirName target) src else src
      if t.exists? here target && !flags.contains 'f' then
        complain ("failed to create " ++ kind ++ " " ++ quoteName target ++ ": File exists")
      else
        match t.lookup here pointed with
        | .error e =>
          if !symbolic then complain ("failed to access " ++ quoteName src ++ ": " ++ e.reason)
        | .ok (srcLoc, .directory) =>
          if !symbolic then complain (quoteName src ++ ": hard link not allowed for directory")
          else
            match t.resolve here target with
            | .ok tgt => setFiles (copyEntries t srcLoc tgt.location)
            | .error e => complain ("failed to create " ++ kind ++ " " ++ quoteName target ++ ": " ++ e.reason)
        | .ok (_, .file content x) =>
          match t.openTruncate here target x with
          | .ok (t', loc) => setFiles ((t'.setContent loc content).setExecutable loc x)
          | .error e => complain ("failed to create " ++ kind ++ " " ++ quoteName target ++ ": " ++ e.reason)

/-- The executable flag a mode gives a file that had `before`: octal modes set it when any
execute bit is set; symbolic ones add, remove or set it. -/
def modeExecutable (mode : String) (before : Bool) : Option Bool :=
  if !mode.isEmpty && mode.all fun c => '0' ≤ c && c ≤ '7' then
    let n := mode.toList.foldl (fun acc c => 8 * acc + (c.toNat - 48)) 0
    some (n % 8 % 2 == 1 || n / 8 % 8 % 2 == 1 || n / 64 % 8 % 2 == 1)
  else
    (mode.splitOn ",").foldlM (fun (x : Bool) clause =>
      let body := clause.toList.dropWhile fun c => c == 'u' || c == 'g' || c == 'o' || c == 'a'
      match body with
      | '+' :: perms => if perms.all (fun c => "rwxXst".contains c) then some (x || perms.contains 'x') else none
      | '-' :: perms => if perms.all (fun c => "rwxXst".contains c) then some (x && !perms.contains 'x') else none
      | '=' :: perms => if perms.all (fun c => "rwxXst".contains c) then some (perms.contains 'x') else none
      | _ => none) before

/-- `chmod MODE FILE…`. -/
def chmodTool : Tool := do
  match ← ToolM.args with
  | mode :: names@(_ :: _) =>
    for name in names do
      let t ← ToolM.files
      match t.lookup (← ToolM.cwd) name with
      | .ok (loc, .file _ x) =>
        match modeExecutable mode x with
        | some x' => setFiles (t.setExecutable loc x')
        | none => complain ("invalid mode: " ++ quoteName mode)
      | .ok (_, .directory) => pure ()
      | .error e => complain ("cannot access " ++ quoteName name ++ ": " ++ e.reason)
  | [mode] => complain ("missing operand after " ++ quoteName mode)
  | [] => complain "missing operand"

/-- `tee [-a] FILE…`: copy standard input to standard output and to each file. -/
def teeTool : Tool := do
  let (flags, operands) := splitOptions (← ToolM.args)
  let input := (← read).input
  for name in operands do
    let t ← ToolM.files
    let here ← ToolM.cwd
    let opened := if flags.contains 'a' then
        (t.openAppend here name).map fun (t', loc, old) => (t', loc, old)
      else (t.openTruncate here name false).map fun (t', loc) => (t', loc, "")
    match opened with
    | .ok (t', loc, old) => setFiles (t'.setContent loc (old ++ input))
    | .error e => complain (name ++ ": " ++ e.reason)
  out input

/-- `pwd`: the working directory. -/
def pwdTool : Tool := do
  out ("/" ++ "/".intercalate (← ToolM.cwd) ++ "\n")

/-- `printenv [NAME…]`. -/
def printenvTool : Tool := do
  let env := (← read).env
  match ← ToolM.args with
  | [] => for (k, v) in env do out (k ++ "=" ++ v ++ "\n")
  | names =>
    for n in names do
      match env.find? (·.1 == n) with
      | some (_, v) => out (v ++ "\n")
      | none => setStatus 1

/-- `sleep SECONDS`: time passes at once. -/
def sleepTool : Tool := do
  match ← ToolM.args with
  | [] => complain "missing operand"
  | args =>
    for a in args do
      let body := a.toList.filter fun c => c != '.'
      let body := match body.getLast? with
        | some 's' | some 'm' | some 'h' | some 'd' => body.dropLast
        | _ => body
      if body.isEmpty || !body.all Char.isDigit then
        complain ("invalid time interval " ++ quoteName a)

/-- `true`. -/
def trueTool : Tool := pure ()

/-- `false`. -/
def falseTool : Tool := setStatus 1

/-- `uname`: the kernel's name. -/
def unameTool : Tool := do
  let (flags, _) := splitOptions (← ToolM.args)
  if flags.contains 'm' then out "x86_64\n" else out "Linux\n"

end Shell

end ReleaseBuild
