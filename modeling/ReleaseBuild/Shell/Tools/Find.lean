import ReleaseBuild.Shell.Tool
import ReleaseBuild.Shell.Pattern
/-!
# Finding files

`find [PATH…] [EXPRESSION]` walks each starting path and everything below it, a directory
before what it holds and the names of a directory in byte order, and applies the expression to
each entry it reaches. The starting paths are the arguments before the first one that starts
with `-`, or is `!` or `(`; without any, the walk starts at `.`.

The expression is built from

* tests: `-name` and `-iname` (a shell pattern on the last name, the second ignoring case),
  `-path` and `-ipath` (on the whole path as written), `-type f` and `-type d`, `-empty`,
  `-true` and `-false`;
* the action `-print`, which writes the path and holds;
* the operators `!` or `-not`, `-a` or `-and` (or nothing between two parts), `-o` or `-or`,
  and parentheses, binding in that order, with the right part of `-a` and `-o` evaluated only
  when it decides the value.

An expression without `-print` prints every entry for which it holds. `-maxdepth N` keeps the
walk at most `N` levels below a starting path, and `-mindepth N` applies the expression only
from `N` levels down. A path is its starting path joined with the names below it.
-/

namespace ReleaseBuild

namespace Shell

open ToolM

/-- An expression of `find`. -/
inductive FindExpr where
  /-- A constant. -/
  | holds (value : Bool)
  /-- A shell pattern on the last name, or on the whole path, ignoring case or not. -/
  | name (pattern : List PatternChar) (wholePath ignoreCase : Bool)
  /-- The kind of entry, by the letter of `-type`. -/
  | type (letter : Char)
  /-- An empty file or a directory with nothing in it. -/
  | empty
  /-- Write the path. -/
  | print
  | not (e : FindExpr)
  | and (a b : FindExpr)
  | or (a b : FindExpr)
  deriving Repr, Inhabited

/-- An entry the walk reaches: its path as written, its last name, and its entry. -/
structure FindEntry where
  path : String
  name : String
  loc : Location
  node : Node

/-- A pattern of `find`: a backslash makes the next character stand for itself. -/
def findPattern (text : String) : List PatternChar :=
  let rec go : List Char → List PatternChar
    | '\\' :: c :: rest => (c, true) :: go rest
    | c :: rest => (c, false) :: go rest
    | [] => []
  go text.toList

/-- A pattern and a text in lower case, for the tests that ignore case. -/
def foldCase (p : List PatternChar) : List PatternChar := p.map fun (c, q) => (c.toLower, q)

namespace FindExpr

/-- Whether an expression holds for an entry, and the paths it writes on the way. -/
def eval (t : FileTree) (e : FindEntry) : FindExpr → Bool × List String
  | holds b => (b, [])
  | name p whole fold =>
    let text := if whole then e.path else e.name
    if fold then (patternMatches (foldCase p) text.toLower, [])
    else (patternMatches p text, [])
  | type c =>
    match c, e.node with
    | 'f', .file .. => (true, [])
    | 'd', .directory => (true, [])
    | _, _ => (false, [])
  | empty =>
    match e.node with
    | .file content _ => (content.isEmpty, [])
    | .directory => ((t.childNames e.loc).isEmpty, [])
  | print => (true, [e.path])
  | not a =>
    let (v, out) := a.eval t e
    (!v, out)
  | and a b =>
    let (v, out) := a.eval t e
    if v then
      let (w, more) := b.eval t e
      (w, out ++ more)
    else (false, out)
  | or a b =>
    let (v, out) := a.eval t e
    if v then (true, out)
    else
      let (w, more) := b.eval t e
      (w, out ++ more)

/-- Whether an expression writes anything itself. -/
def prints : FindExpr → Bool
  | print => true
  | not a => a.prints
  | and a b | or a b => a.prints || b.prints
  | _ => false

end FindExpr

/-- A mistake in the expression of `find`. -/
inductive FindError where
  | unknownPredicate (arg : String)
  | missingArgument (arg : String)
  | unknownType (letter : String)
  | invalidExpression
  deriving Repr

namespace FindError

/-- The message of a mistake. -/
def message : FindError → String
  | unknownPredicate a => "unknown predicate `" ++ a ++ "'"
  | missingArgument a => "missing argument to `" ++ a ++ "'"
  | unknownType l => "Unknown argument to -type: " ++ l
  | invalidExpression => "invalid expression"

end FindError

/-- Whether an argument starts an expression rather than naming a starting path. -/
def startsExpression (arg : String) : Bool :=
  arg.startsWith "-" && arg != "-" || arg == "!" || arg == "("

mutual

/-- Read `e -o e …`. -/
def findOr : Nat → List String → Except FindError (FindExpr × List String)
  | 0, _ => .error .invalidExpression
  | fuel + 1, args => do
    let (a, rest) ← findAnd fuel args
    match rest with
    | o :: more =>
      if o == "-o" || o == "-or" then do
        let (b, after) ← findOr fuel more
        .ok (.or a b, after)
      else .ok (a, rest)
    | [] => .ok (a, rest)

/-- Read `e -a e …`, where `-a` may be left out. -/
def findAnd : Nat → List String → Except FindError (FindExpr × List String)
  | 0, _ => .error .invalidExpression
  | fuel + 1, args => do
    let (a, rest) ← findNot fuel args
    match rest with
    | o :: more =>
      if o == "-a" || o == "-and" then do
        let (b, after) ← findAnd fuel more
        .ok (.and a b, after)
      else if o == "-o" || o == "-or" || o == ")" then .ok (a, rest)
      else do
        let (b, after) ← findAnd fuel rest
        .ok (.and a b, after)
    | [] => .ok (a, rest)

/-- Read `! e` or a primary. -/
def findNot : Nat → List String → Except FindError (FindExpr × List String)
  | 0, _ => .error .invalidExpression
  | fuel + 1, args =>
    match args with
    | o :: more =>
      if o == "!" || o == "-not" then do
        let (a, rest) ← findNot fuel more
        .ok (.not a, rest)
      else findPrimary fuel args
    | [] => .error .invalidExpression

/-- Read a primary: a group, a test or an action. -/
def findPrimary : Nat → List String → Except FindError (FindExpr × List String)
  | 0, _ => .error .invalidExpression
  | fuel + 1, args =>
    match args with
    | "(" :: more => do
      let (a, rest) ← findOr fuel more
      match rest with
      | ")" :: after => .ok (a, after)
      | _ => .error .invalidExpression
    | "-print" :: rest => .ok (.print, rest)
    | "-true" :: rest => .ok (.holds true, rest)
    | "-false" :: rest => .ok (.holds false, rest)
    | "-empty" :: rest => .ok (.empty, rest)
    | [p] =>
      if ["-name", "-iname", "-path", "-ipath", "-wholename", "-type"].contains p then
        .error (.missingArgument p)
      else .error (.unknownPredicate p)
    | p :: value :: rest =>
      if p == "-name" then .ok (.name (findPattern value) false false, rest)
      else if p == "-iname" then .ok (.name (findPattern value) false true, rest)
      else if p == "-path" || p == "-wholename" then .ok (.name (findPattern value) true false, rest)
      else if p == "-ipath" then .ok (.name (findPattern value) true true, rest)
      else if p == "-type" then
        match value.toList with
        | [c] => if "bcdpflsD".contains c then .ok (.type c, rest) else .error (.unknownType value)
        | _ => .error (.unknownType value)
      else .error (.unknownPredicate p)
    | [] => .error .invalidExpression

end

/-- The global options of an expression taken out of it: the depth limits, and the rest. -/
def depthOptions : List String → Option Nat × Nat × List String
  | [] => (none, 0, [])
  | "-maxdepth" :: n :: rest =>
    let (_, low, more) := depthOptions rest
    (some n.toNat!, low, more)
  | "-mindepth" :: n :: rest =>
    let (high, _, more) := depthOptions rest
    (high, n.toNat!, more)
  | a :: rest =>
    let (high, low, more) := depthOptions rest
    (high, low, a :: more)

/-- The last name of a starting path, without trailing slashes. -/
def startName (path : String) : String :=
  let trimmed := (path.toList.reverse.dropWhile (· == '/')).reverse
  if trimmed.isEmpty then (if path.isEmpty then "" else "/") else baseName (String.ofList trimmed)

/-- The entries of a walk from an entry, the entry first and then what lies below it by name,
down to `limit` levels below the start; each with its depth. -/
def walkFrom (t : FileTree) (limit : Option Nat) : Nat → Nat → FindEntry → List (Nat × FindEntry)
  | 0, _, _ => []
  | fuel + 1, depth, e =>
    let below :=
      match e.node with
      | .directory =>
        if limit.all (depth < ·) then
          (FileTree.sortNames (t.childNames e.loc)).flatMap fun n =>
            match t.get? (e.loc ++ [n]) with
            | some node =>
              let path := if e.path.endsWith "/" then e.path ++ n else e.path ++ "/" ++ n
              walkFrom t limit fuel (depth + 1) ⟨path, n, e.loc ++ [n], node⟩
            | none => []
        else []
      | .file .. => []
    (depth, e) :: below

/-- `find [PATH…] [EXPRESSION]`. -/
def findTool : Tool := do
  let args ← ToolM.args
  let starts := args.takeWhile (!startsExpression ·)
  let (high, low, words) := depthOptions (args.drop starts.length)
  let parsed : Except FindError FindExpr :=
    if words.isEmpty then .ok .print
    else
      match findOr (4 * words.length + 8) words with
      | .ok (e, []) => .ok (if e.prints then e else .and e .print)
      | .ok (_, extra :: _) =>
        if extra == ")" then .error .invalidExpression else .error (.unknownPredicate extra)
      | .error e => .error e
  match parsed with
  | .error e => complain e.message
  | .ok expr =>
    let t ← ToolM.files
    let here ← ToolM.cwd
    for start in (if starts.isEmpty then ["."] else starts) do
      match t.lookup here start with
      | .ok (loc, node) =>
        let entries := walkFrom t high (t.entries.length + 1) 0 ⟨start, startName start, loc, node⟩
        for (depth, e) in entries do
          if low ≤ depth then out (unlines (expr.eval t e).2)
      | .error e => complain (quoteName start ++ ": " ++ e.reason)

end Shell

end ReleaseBuild
