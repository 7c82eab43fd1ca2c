import ReleaseBuild.Shell.Tool
/-!
# `test` and `[`

`test` evaluates a condition given as arguments; `[` is the same with a closing `]`. The
condition is read by the POSIX rules for up to four arguments (so that `[ "$x" = -n ]` means
what it says), and by a grammar beyond that:

* `! e` negates, `e -a e` and `e -o e` combine (`-a` binds tighter), `( e )` groups;
* unary tests on files (`-e`, `-f`, `-d`, `-x`, `-s`, …) and on strings (`-n`, `-z`);
* binary tests on strings (`=`, `!=`, `<`, `>`), on integers (`-eq`, `-ne`, `-lt`, `-le`,
  `-gt`, `-ge`) and on files (`-nt`, `-ot`, `-ef`);
* a lone string is true when it is not empty.

The status is 0 for true, 1 for false and 2 for a malformed condition. The shell's builtin
and the program word their complaints differently.
-/

namespace ReleaseBuild

namespace Shell

/-- A malformed condition. -/
inductive TestError where
  | missingBracket
  | unexpectedOperator (arg : String)
  | illegalNumber (arg : String)
  | argumentExpected (op : String)
  | closingParenExpected
  deriving DecidableEq, Repr

/-- The unary operators. -/
def unaryTests : List String :=
  ["-b", "-c", "-d", "-e", "-f", "-g", "-h", "-k", "-L", "-n", "-p", "-r", "-s", "-S", "-t", "-u",
    "-w", "-x", "-z", "-O", "-G"]

/-- The binary operators. -/
def binaryTests : List String :=
  ["=", "!=", "<", ">", "-eq", "-ne", "-gt", "-ge", "-lt", "-le", "-nt", "-ot", "-ef"]

/-- Read an integer operand: optional blanks, an optional sign and digits. -/
def testNumber (s : String) : Except TestError Int :=
  let cs := s.toList.dropWhile fun c => c == ' ' || c == '\t'
  let (negative, digits) := match cs with
    | '-' :: more => (true, more)
    | '+' :: more => (false, more)
    | _ => (false, cs)
  if digits.isEmpty || !digits.all Char.isDigit then .error (.illegalNumber s)
  else
    let n : Int := (String.ofList digits).toNat!
    .ok (if negative then -n else n)

/-- Evaluate a unary test. -/
def unaryTest (t : FileTree) (cwd : Location) (op arg : String) : Bool :=
  let node := match t.stat cwd arg with
    | .ok n => some n
    | .error _ => none
  match op with
  | "-n" => !arg.isEmpty
  | "-z" => arg.isEmpty
  | "-e" | "-r" | "-w" => node.isSome
  | "-f" => match node with
    | some (.file ..) => true
    | _ => false
  | "-d" => match node with
    | some .directory => true
    | _ => false
  | "-x" => match node with
    | some (.file _ x) => x
    | some .directory => true
    | none => false
  | "-s" => match node with
    | some (.file c _) => !c.isEmpty
    | some .directory => true
    | none => false
  | _ => false

/-- Evaluate a binary test. -/
def binaryTest (t : FileTree) (cwd : Location) (a op b : String) : Except TestError Bool :=
  match op with
  | "=" => .ok (a == b)
  | "!=" => .ok (a != b)
  | "<" => .ok (a < b)
  | ">" => .ok (b < a)
  | "-nt" | "-ot" => .ok false
  | "-ef" => .ok (t.exists? cwd a && t.exists? cwd b &&
      (t.lookup cwd a).toOption.map (·.1) == (t.lookup cwd b).toOption.map (·.1))
  | _ => do
    let x ← testNumber a
    let y ← testNumber b
    match op with
    | "-eq" => .ok (x == y)
    | "-ne" => .ok (x != y)
    | "-gt" => .ok (x > y)
    | "-ge" => .ok (x ≥ y)
    | "-lt" => .ok (x < y)
    | _ => .ok (x ≤ y)

mutual

/-- Read `e -o e …`: the value and the arguments left. -/
def testOr (t : FileTree) (cwd : Location) : Nat → List String → Except TestError (Bool × List String)
  | 0, _ => .error .closingParenExpected
  | fuel + 1, args => do
    let (a, rest) ← testAnd t cwd fuel args
    match rest with
    | "-o" :: more => do
      let (b, after) ← testOr t cwd fuel more
      .ok (a || b, after)
    | _ => .ok (a, rest)

/-- Read `e -a e …`. -/
def testAnd (t : FileTree) (cwd : Location) : Nat → List String → Except TestError (Bool × List String)
  | 0, _ => .error .closingParenExpected
  | fuel + 1, args => do
    let (a, rest) ← testNot t cwd fuel args
    match rest with
    | "-a" :: more => do
      let (b, after) ← testAnd t cwd fuel more
      .ok (a && b, after)
    | _ => .ok (a, rest)

/-- Read `! e` or a primary. -/
def testNot (t : FileTree) (cwd : Location) : Nat → List String → Except TestError (Bool × List String)
  | 0, _ => .error .closingParenExpected
  | fuel + 1, args =>
    match args with
    | "!" :: more@(_ :: _) => do
      let (a, rest) ← testNot t cwd fuel more
      .ok (!a, rest)
    | _ => testPrimary t cwd fuel args

/-- Read a primary: a group, a unary or binary test, or a string. -/
def testPrimary (t : FileTree) (cwd : Location) : Nat → List String → Except TestError (Bool × List String)
  | 0, _ => .error .closingParenExpected
  | fuel + 1, args =>
    match args with
    | [] => .error (.argumentExpected "")
    | "(" :: more@(_ :: _) => do
      let (a, rest) ← testOr t cwd fuel more
      match rest with
      | ")" :: after => .ok (a, after)
      | _ => .error .closingParenExpected
    | a :: op :: b :: rest =>
      if binaryTests.contains op then do
        let v ← binaryTest t cwd a op b
        .ok (v, rest)
      else if unaryTests.contains a then .ok (unaryTest t cwd a op, b :: rest)
      else .ok (!a.isEmpty, op :: b :: rest)
    | [a, b] =>
      if unaryTests.contains a then .ok (unaryTest t cwd a b, [])
      else if binaryTests.contains b then .error (.argumentExpected b)
      else .ok (!a.isEmpty, [b])
    | [a] => .ok (!a.isEmpty, [])

end

/-- Evaluate a condition given as arguments. -/
def evalTest (t : FileTree) (cwd : Location) (args : List String) : Except TestError Bool :=
  let general (xs : List String) : Except TestError Bool := do
    let (v, rest) ← testOr t cwd (2 * xs.length + 4) xs
    match rest with
    | [] => .ok v
    | r :: _ => .error (.unexpectedOperator r)
  let one (a : String) : Bool := !a.isEmpty
  let two (a b : String) : Except TestError Bool :=
    if a == "!" then .ok (!one b)
    else if unaryTests.contains a then .ok (unaryTest t cwd a b)
    else .error (.unexpectedOperator a)
  let three (a b c : String) : Except TestError Bool :=
    if binaryTests.contains b then binaryTest t cwd a b c
    else if a == "!" then (two b c).map (!·)
    else if a == "(" && c == ")" then .ok (one b)
    else if b == "-a" then .ok (one a && one c)
    else if b == "-o" then .ok (one a || one c)
    else .error (.unexpectedOperator b)
  match args with
  | [] => .ok false
  | [a] => .ok (one a)
  | [a, b] => two a b
  | [a, b, c] => three a b c
  | [a, b, c, d] =>
    if a == "!" then (three b c d).map (!·)
    else if a == "(" && d == ")" then two b c
    else general args
  | _ => general args

/-- The arguments of `[` without the closing `]`, or the complaint. -/
def bracketArgs (args : List String) : Except TestError (List String) :=
  if args.getLast? == some "]" then .ok args.dropLast else .error .missingBracket

/-- The complaint of the shell's builtin. -/
def TestError.shellText : TestError → String
  | .missingBracket => "missing ]"
  | .unexpectedOperator a => a ++ ": unexpected operator"
  | .illegalNumber a => "Illegal number: " ++ a
  | .argumentExpected a => a ++ ": argument expected"
  | .closingParenExpected => "closing paren expected"

/-- The complaint of the program. -/
def TestError.programText : TestError → String
  | .missingBracket => "missing ']'"
  | .unexpectedOperator a => "extra argument " ++ quoteName a
  | .illegalNumber a => "invalid integer " ++ quoteName a
  | .argumentExpected a => quoteName a ++ ": unary operator expected"
  | .closingParenExpected => "')' expected"

/-- The program `test`, or `[` when `bracket` is set. -/
def testTool (bracket : Bool) : Tool := do
  let run ← read
  let t ← ToolM.files
  let args := if bracket then bracketArgs run.args else .ok run.args
  match args >>= evalTest t run.cwd with
  | .ok v => ToolM.setStatus (if v then 0 else 1)
  | .error e => ToolM.complainWith 2 e.programText

end Shell

end ReleaseBuild
