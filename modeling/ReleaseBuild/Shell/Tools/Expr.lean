import ReleaseBuild.Shell.Tool
import ReleaseBuild.Shell.Regex
/-!
# Evaluating `expr`

`expr` reads its arguments as one expression and prints its value. From loosest to tightest
binding, the operators are

* `a | b`: `a` unless it is null, else `b` unless it is null, else `0`;
* `a & b`: `a` when neither is null, else `0`;
* `<`, `<=`, `=`, `==`, `!=`, `>=`, `>`: `1` or `0`, comparing as integers when both sides are
  integers and as texts in byte order otherwise;
* `+` and `-`, then `*`, `/` and `%`, on integers, dividing toward zero;
* `a : re`: the regular expression matched at the start of `a`, giving the text of its first
  group when it has one and otherwise the number of characters matched;
* the words `length`, `substr`, `index` and `match`, `+ WORD` for a word taken as it is, and
  parentheses.

A value is null when it is empty or an integer equal to zero. The status is 0 for a value that
is not null, 1 for one that is, and 2 for a mistake in the expression or an operand that is
not an integer where one is needed.
-/

namespace ReleaseBuild

namespace Shell

open ToolM

/-- A value of `expr`: an integer or a text. -/
inductive ExprValue where
  | number (n : Int)
  | text (s : String)
  deriving DecidableEq, Repr, Inhabited

/-- A mistake that stops `expr`. -/
inductive ExprError where
  | malformed (message : String)
  | nonInteger
  | divisionByZero
  | badRegex (message : String)
  deriving DecidableEq, Repr

namespace ExprError

/-- The message of a mistake. -/
def message : ExprError → String
  | malformed m => "syntax error: " ++ m
  | nonInteger => "non-integer argument"
  | divisionByZero => "division by zero"
  | badRegex m => m

end ExprError

/-- Whether a text is an integer: an optional `-` and at least one digit. -/
def looksIntegral (s : String) : Bool :=
  let digits := match s.toList with
    | '-' :: rest => rest
    | cs => cs
  !digits.isEmpty && digits.all Char.isDigit

namespace ExprValue

/-- The text of a value. -/
def render : ExprValue → String
  | number n => toString n
  | text s => s

/-- The integer a value stands for, if it is one. -/
def toInt? : ExprValue → Option Int
  | number n => some n
  | text s =>
    if looksIntegral s then
      match s.toList with
      | '-' :: rest => some (-(String.ofList rest).toNat! : Int)
      | _ => some s.toNat!
    else none

/-- Whether a value is null: empty, or an integer equal to zero. -/
def isNull : ExprValue → Bool
  | number n => n == 0
  | text s =>
    let digits := match s.toList with
      | '-' :: rest => rest
      | cs => cs
    s.isEmpty || (!digits.isEmpty && digits.all (· == '0'))

end ExprValue

/-- Apply an arithmetic operator. -/
def exprArith (op : String) (a b : ExprValue) : Except ExprError ExprValue :=
  match a.toInt?, b.toInt? with
  | some x, some y =>
    if op == "+" then .ok (.number (x + y))
    else if op == "-" then .ok (.number (x - y))
    else if op == "*" then .ok (.number (x * y))
    else if y == 0 then .error .divisionByZero
    else if op == "/" then .ok (.number (x.tdiv y))
    else .ok (.number (x.tmod y))
  | _, _ => .error .nonInteger

/-- Apply a comparison. -/
def exprCompare (op : String) (a b : ExprValue) : ExprValue :=
  let order : Ordering :=
    match a.toInt?, b.toInt? with
    | some x, some y => compare x y
    | _, _ => compare a.render b.render
  let holds : Bool := match op with
    | "<" => order == .lt
    | "<=" => order != .gt
    | "=" | "==" => order == .eq
    | "!=" => order != .eq
    | ">=" => order != .lt
    | _ => order == .gt
  .number (if holds then 1 else 0)

/-- Match a regular expression at the start of a text: the first group's text when the
expression has groups, else the number of characters matched. -/
def exprMatch (a re : ExprValue) : Except ExprError ExprValue :=
  match compileRegex re.render false false with
  | .error m => .error (.badRegex m)
  | .ok compiled =>
    let s := a.render.toList.toArray
    let grouped := Text.contains re.render "\\("
    match compiled.matchAt s 0 with
    | some (stop, groups) =>
      if grouped then
        match groupSpan groups 1 with
        | some (x, y) => .ok (.text (String.ofList (s.extract x y).toList))
        | none => .ok (.text "")
      else .ok (.number stop)
    | none => .ok (if grouped then .text "" else .number 0)

/-- The binary operators of each level, loosest first. -/
def exprLevels : List (List String) :=
  [["|"], ["&"], ["<", "<=", "=", "==", "!=", ">=", ">"], ["+", "-"], ["*", "/", "%"], [":"]]

/-- Combine two values by a binary operator. -/
def exprApply (op : String) (a b : ExprValue) : Except ExprError ExprValue :=
  if op == "|" then .ok (if !a.isNull then a else if !b.isNull then b else .number 0)
  else if op == "&" then .ok (if a.isNull || b.isNull then .number 0 else a)
  else if op == ":" then exprMatch a b
  else if ["+", "-", "*", "/", "%"].contains op then exprArith op a b
  else .ok (exprCompare op a b)

mutual

/-- Read the operands and operators of one level, from left to right. -/
def exprLevel : Nat → Nat → List String → Except ExprError (ExprValue × List String)
  | 0, _, _ => .error (.malformed "expression too deep")
  | fuel + 1, level, args => do
    let (first, rest) ← exprOperand fuel level args
    exprChain fuel level first rest

/-- Continue a level from a value read so far. -/
def exprChain : Nat → Nat → ExprValue → List String → Except ExprError (ExprValue × List String)
  | 0, _, _, _ => .error (.malformed "expression too deep")
  | fuel + 1, level, acc, args =>
    match args with
    | op :: more =>
      if (exprLevels.getD level []).contains op then
        if more.isEmpty then .error (.malformed ("missing argument after " ++ quoteName op))
        else do
          let (b, after) ← exprOperand fuel level more
          let v ← exprApply op acc b
          exprChain fuel level v after
      else .ok (acc, args)
    | [] => .ok (acc, args)

/-- An operand of a level: the next level, or a primary below the last. -/
def exprOperand : Nat → Nat → List String → Except ExprError (ExprValue × List String)
  | 0, _, _ => .error (.malformed "expression too deep")
  | fuel + 1, level, args =>
    if level + 1 < exprLevels.length then exprLevel fuel (level + 1) args
    else exprPrimary fuel args

/-- A primary: a keyword with its operands, a quoted word, a group or a word. -/
def exprPrimary : Nat → List String → Except ExprError (ExprValue × List String)
  | 0, _ => .error (.malformed "expression too deep")
  | fuel + 1, args =>
    match args with
    | [] => .error (.malformed "missing argument")
    | "(" :: more => do
      let (v, rest) ← exprLevel fuel 0 more
      match rest with
      | ")" :: after => .ok (v, after)
      | [] => .error (.malformed ("expecting ')' after " ++ quoteName (more.getLastD "(")))
      | t :: _ => .error (.malformed ("expecting ')', got " ++ quoteName t))
    | ")" :: _ => .error (.malformed "unexpected ')'")
    | "+" :: w :: rest => .ok (.text w, rest)
    | "length" :: w :: rest => .ok (.number w.length, rest)
    | "match" :: a :: re :: rest => do
      let v ← exprMatch (.text a) (.text re)
      .ok (v, rest)
    | "index" :: a :: chars :: rest =>
      let position : Nat := ((a.toList.zipIdx.find? fun (c, _) => chars.contains c).map (·.2 + 1)).getD 0
      .ok (.number position, rest)
    | "substr" :: a :: p :: n :: rest =>
      match (ExprValue.text p).toInt?, (ExprValue.text n).toInt? with
      | some pos, some len =>
        if pos ≤ 0 || len ≤ 0 then .ok (.text "", rest)
        else .ok (.text (String.ofList ((a.toList.drop (pos.toNat - 1)).take len.toNat)), rest)
      | _, _ => .error .nonInteger
    | w :: rest => .ok (.text w, rest)

end

/-- Evaluate the arguments of `expr`. -/
def evalExpr (args : List String) : Except ExprError ExprValue := do
  let (v, rest) ← exprLevel (4 * args.length + 8) 0 args
  match rest with
  | [] => .ok v
  | t :: _ => .error (.malformed ("unexpected argument " ++ quoteName t))

/-- `expr EXPRESSION…`. -/
def exprTool : Tool := do
  let args ← ToolM.args
  if args.isEmpty then
    complainWith 2 "missing operand"
    err "Try 'expr --help' for more information.\n"
  else
    match evalExpr (if args.head? == some "--" then args.drop 1 else args) with
    | .ok v =>
      out (v.render ++ "\n")
      setStatus (if v.isNull then 1 else 0)
    | .error e => complainWith 2 e.message

end Shell

end ReleaseBuild
