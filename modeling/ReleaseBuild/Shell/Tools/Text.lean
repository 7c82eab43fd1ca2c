import ReleaseBuild.Shell.Tools.Format
import ReleaseBuild.Shell.Pattern
/-!
# Programs that transform text

`echo`, `printf`, `cat`, `head`, `tail`, `wc`, `sort`, `uniq`, `tr`, `cut`, `seq`,
`basename` and `dirname`, as the system's programs behave (not the shell's builtins of the
same names). Each reads its file operands or, without any, standard input.
-/

namespace ReleaseBuild

namespace Shell

open ToolM

/-- How the program `echo` reads escapes with `-e`. -/
def echoEscapes : EscapeStyle := ⟨true, false, true⟩

/-- How the program `printf` reads escapes in its format. -/
def printfEscapes : EscapeStyle := ⟨false, true, true⟩

/-- How the program `printf` reads escapes in a `%b` argument. -/
def printfArgEscapes : EscapeStyle := ⟨true, false, true⟩

/-- `echo [-neE]… ARG…`: the arguments separated by blanks, with a line end unless `-n`;
escapes only with `-e`. -/
def echoTool : Tool := do
  let args ← ToolM.args
  let isOption (a : String) := a.length > 1 && a.startsWith "-" && (a.toList.drop 1).all fun c => c == 'n' || c == 'e' || c == 'E'
  let options := args.takeWhile isOption
  let rest := args.drop options.length
  let flags := options.flatMap fun o => o.toList.drop 1
  let newline := !flags.contains 'n'
  let escapes := flags.foldl (fun acc c => if c == 'e' then true else if c == 'E' then false else acc) false
  let text := " ".intercalate rest
  if escapes then
    let (t, stop) := escapeText echoEscapes text
    out (if stop || !newline then t else t ++ "\n")
  else out (if newline then text ++ "\n" else text)

/-- `printf FORMAT ARG…`. -/
def printfTool : Tool := do
  match ← ToolM.args with
  | [] => complain "missing operand"
  | format :: rest =>
    let f := formatPrintf printfEscapes printfArgEscapes format rest
    out f.text
    for (arg, prefixRead) in f.badNumbers do
      if prefixRead then complain (quoteName arg ++ ": value not completely converted")
      else complain (quoteName arg ++ ": expected a numeric value")
    match f.invalid with
    | some spec => complain (quoteName spec ++ ": invalid conversion specification")
    | none => pure ()

/-- The texts of the file operands, or of standard input without any; a missing file is
reported and skipped. -/
def readInputs (operands : List String) : ToolM (List String) := do
  let names := if operands.isEmpty then ["-"] else operands
  let mut texts : Array String := #[]
  for name in names do
    match ← readOperand name with
    | .ok t => texts := texts.push t
    | .error e => complain (name ++ ": " ++ e.reason)
  pure texts.toList

/-- `cat FILE…`: each file in turn, a missing one reported where it stands. -/
def catTool : Tool := do
  let (_, operands) := splitOptions (← ToolM.args)
  for name in if operands.isEmpty then ["-"] else operands do
    match ← readOperand name with
    | .ok t => out t
    | .error e => complain (name ++ ": " ++ e.reason)

/-- Read a count option of `head` and `tail`: `-n N`, `-nN`, `-N`; gives the count and the
operands. -/
def countOption (args : List String) (default : Nat) : Option Nat × List String :=
  match args with
  | "-n" :: n :: rest => (n.toNat?, rest)
  | a :: rest =>
    if a.startsWith "-n" then ((Text.dropChars a 2).toNat?, rest)
    else if a.startsWith "-" && a.length > 1 && (a.toList.drop 1).all Char.isDigit then
      ((Text.dropChars a 1).toNat?, rest)
    else (some default, args)
  | [] => (some default, [])

/-- `head [-n N] FILE…`: the first lines. -/
def headTool : Tool := do
  match countOption (← ToolM.args) 10 with
  | (some n, operands) =>
    for t in ← readInputs operands do out (unlines ((linesOf t).take n))
  | (none, _) => complain "invalid number of lines"

/-- `tail [-n N] FILE…`: the last lines. -/
def tailTool : Tool := do
  match countOption (← ToolM.args) 10 with
  | (some n, operands) =>
    for t in ← readInputs operands do
      let ls := linesOf t
      out (unlines (ls.drop (ls.length - n)))
  | (none, _) => complain "invalid number of lines"

/-- The words of a text: the runs of characters that are not blanks. -/
def wordsOf (text : String) : List String :=
  (text.split (fun c => c == ' ' || c == '\t' || c == '\n' || c == '\r')).toList.map (·.toString)
    |>.filter (!·.isEmpty)

/-- `wc [-lwc] FILE…`: line, word and byte counts. -/
def wcTool : Tool := do
  let (flags, operands) := splitOptions (← ToolM.args)
  let chosen := if flags.isEmpty then ['l', 'w', 'c'] else ['l', 'w', 'c'].filter flags.contains
  let counts (t : String) : List Nat := chosen.map fun f =>
    if f == 'l' then (t.toList.filter (· == '\n')).length
    else if f == 'w' then (wordsOf t).length
    else t.utf8ByteSize
  let names := if operands.isEmpty then [none] else operands.map some
  let mut rows : Array (List Nat × Option String) := #[]
  for name in names do
    match ← readOperand (name.getD "-") with
    | .ok t => rows := rows.push (counts t, name)
    | .error e => complain (name.getD "-" ++ ": " ++ e.reason)
  let table := if rows.size > 1 then
      rows.push ((List.range chosen.length).map fun i => rows.foldl (fun acc r => acc + r.1.getD i 0) 0, some "total")
    else rows
  let width := if chosen.length == 1 && table.size == 1 then 1
    else if operands.isEmpty then 7
    else (table.toList.flatMap (·.1)).foldl (fun w n => max w (toString n).length) 1
  for (cs, name) in table do
    let cells := cs.map fun n => Text.padLeft (toString n) width
    out (" ".intercalate cells ++ (match name with
      | some n => " " ++ n
      | none => "") ++ "\n")

/-- The leading number of a line as `sort -n` reads it. -/
def leadingNumber (line : String) : Int :=
  let cs := line.toList.dropWhile fun c => c == ' ' || c == '\t'
  match cs with
  | '-' :: more => -(String.ofList (more.takeWhile Char.isDigit)).toNat!
  | _ => (String.ofList (cs.takeWhile Char.isDigit)).toNat!

/-- `sort [-rnu] FILE…`: the lines in byte order. -/
def sortTool : Tool := do
  let (flags, operands) := splitOptions (← ToolM.args)
  let lines := (← readInputs operands).flatMap linesOf
  let sorted := if flags.contains 'n' then
      lines.mergeSort fun a b => leadingNumber a < leadingNumber b ||
        (leadingNumber a == leadingNumber b && decide (a ≤ b))
    else lines.mergeSort fun a b => decide (a ≤ b)
  let sorted := if flags.contains 'r' then sorted.reverse else sorted
  let sorted := if flags.contains 'u' then
      sorted.foldr (fun l acc => if acc.head? == some l then acc else l :: acc) []
    else sorted
  out (unlines sorted)

/-- `uniq`: the lines without adjacent repeats. -/
def uniqTool : Tool := do
  let (_, operands) := splitOptions (← ToolM.args)
  let lines := (← readInputs (operands.take 1)).flatMap linesOf
  out (unlines (lines.foldr (fun l acc => if acc.head? == some l then acc else l :: acc) []))

/-- The characters of a `tr` set: ranges, classes and escapes spelled out. -/
def trSet : Nat → List Char → List Char
  | 0, _ => []
  | _ + 1, [] => []
  | fuel + 1, '[' :: ':' :: rest =>
    let name := rest.takeWhile (· != ':')
    let after := rest.drop name.length
    match after with
    | ':' :: ']' :: more =>
      let members := (List.range 128).map Char.ofNat |>.filter (inClass (String.ofList name))
      members ++ trSet fuel more
    | _ => '[' :: trSet fuel (':' :: rest)
  | fuel + 1, '\\' :: c :: rest =>
    let d := if c == 'n' then '\n' else if c == 't' then '\t' else if c == 'r' then '\r' else c
    d :: trSet fuel rest
  | fuel + 1, a :: '-' :: b :: rest =>
    if a ≤ b then ((List.range (b.toNat - a.toNat + 1)).map fun k => Char.ofNat (a.toNat + k)) ++ trSet fuel rest
    else a :: trSet fuel ('-' :: b :: rest)
  | fuel + 1, c :: rest => c :: trSet fuel rest

/-- `tr [-ds] SET1 [SET2]`: translate, delete or squeeze characters of standard input. -/
def trTool : Tool := do
  let (flags, operands) := splitOptions (← ToolM.args)
  let input := (← read).input
  let expand (s : String) := trSet (s.length + 1) s.toList
  match operands with
  | [s1] =>
    let set := expand s1
    if flags.contains 'd' then out (String.ofList (input.toList.filter fun c => !set.contains c))
    else if flags.contains 's' then
      out (String.ofList (input.toList.foldr (fun c acc =>
        if set.contains c && acc.head? == some c then acc else c :: acc) []))
    else complain ("missing operand after " ++ quoteName s1)
  | [s1, s2] =>
    let a := expand s1
    let b := expand s2
    let mapChar (c : Char) : Char :=
      match a.findIdx? (· == c) with
      | some i => (b[i]?).getD (b.getLast?.getD c)
      | none => c
    let mapped := input.toList.map mapChar
    let result := if flags.contains 's' then
        mapped.foldr (fun c acc => if b.contains c && acc.head? == some c then acc else c :: acc) []
      else mapped
    out (String.ofList result)
  | _ => complain "missing operand"

/-- The positions a `cut` list names, from 1: `N`, `N-M`, `N-`, `-M`, separated by commas. -/
def cutPositions (spec : String) (limit : Nat) : List Nat :=
  let pieces := spec.splitOn ","
  let ranges := pieces.map fun p =>
    match p.splitOn "-" with
    | [n] => (n.toNat!, n.toNat!)
    | [a, b] => ((if a.isEmpty then 1 else a.toNat!), (if b.isEmpty then limit else b.toNat!))
    | _ => (0, 0)
  (List.range limit).map (· + 1) |>.filter fun i => ranges.any fun (a, b) => a ≤ i && i ≤ b

/-- `cut -d D -f LIST` or `cut -c LIST`. -/
def cutTool : Tool := do
  let args ← ToolM.args
  let rec options : Nat → List String → Option Char → Option String → Option String → List String →
      Option Char × Option String × Option String × List String
    | 0, rest, d, f, c, _ => (d, f, c, rest)
    | _ + 1, [], d, f, c, ops => (d, f, c, ops)
    | n + 1, a :: rest, d, f, c, ops =>
      if a == "-d" then options n (rest.drop 1) ((rest.head?.bind fun s => s.toList.head?)) f c ops
      else if a.startsWith "-d" then options n rest ((Text.dropChars a 2).toList.head?) f c ops
      else if a == "-f" then options n (rest.drop 1) d rest.head? c ops
      else if a.startsWith "-f" then options n rest d (some (Text.dropChars a 2)) c ops
      else if a == "-c" || a == "-b" then options n (rest.drop 1) d f rest.head? ops
      else if a.startsWith "-c" || a.startsWith "-b" then options n rest d f (some (Text.dropChars a 2)) ops
      else options n rest d f c (ops ++ [a])
  let (delim, fields, chars, operands) := options (args.length + 1) args none none none []
  let lines := (← readInputs operands).flatMap linesOf
  match fields, chars with
  | some spec, _ =>
    let d := delim.getD '\t'
    for line in lines do
      if !line.contains d then out (line ++ "\n")
      else
        let parts := line.splitOn d.toString
        let picked := (cutPositions spec parts.length).filterMap fun i => parts[i - 1]?
        out (d.toString.intercalate picked ++ "\n")
  | none, some spec =>
    for line in lines do
      let cs := line.toList
      out (String.ofList ((cutPositions spec cs.length).filterMap fun i => cs[i - 1]?) ++ "\n")
  | none, none => complain "you must specify a list of bytes, characters, or fields"

/-- `seq [FIRST [STEP]] LAST`: the integers from first to last. -/
def seqTool : Tool := do
  let nums := (← ToolM.args).map String.toInt?
  let bounds : Option (Int × Int × Int) := match nums with
    | [some l] => some (1, 1, l)
    | [some f, some l] => some (f, 1, l)
    | [some f, some s, some l] => some (f, s, l)
    | _ => none
  match bounds with
  | some (first, step, last) =>
    if step == 0 then complain "invalid Zero increment value: '0'"
    else
      let count := if step > 0 then (if last < first then 0 else ((last - first) / step).toNat + 1)
        else (if last > first then 0 else ((first - last) / (-step)).toNat + 1)
      out (unlines ((List.range count).map fun (k : Nat) => toString (first + step * (k : Int))))
  | none => complain "invalid argument"

/-- `basename NAME [SUFFIX]`. -/
def basenameTool : Tool := do
  match ← ToolM.args with
  | [name] => out (baseName name ++ "\n")
  | [name, suffix] =>
    let b := baseName name
    let b := if b != suffix && b.endsWith suffix then Text.takeChars b (b.length - suffix.length) else b
    out (b ++ "\n")
  | [] => complain "missing operand"
  | _ :: _ :: extra :: _ => complain ("extra operand " ++ quoteName extra)

/-- `dirname NAME…`. -/
def dirnameTool : Tool := do
  match ← ToolM.args with
  | [] => complain "missing operand"
  | names => for n in names do out (dirName n ++ "\n")

end Shell

end ReleaseBuild
