/-!
# Shell arithmetic

`$((…))` evaluates an integer expression written as in C: decimal, octal (leading `0`) and
hexadecimal (`0x`) numbers, variables (an unset or empty one is `0`), parentheses, the unary
operators `+ - ! ~`, and the binary operators from `*` down to `||` with C's precedences, and
the conditional `a ? b : c`. Comparisons and logical operators give `1` or `0`.

A mistake is reported as the shell words it: `arithmetic expression: <what>: "<text>"`.
-/

namespace ReleaseBuild

namespace Shell

/-- A token of an arithmetic expression. -/
inductive ArithToken where
  | number (n : Int)
  | name (n : String)
  | op (o : String)
  deriving DecidableEq, Repr

/-- The operators, longest first. -/
def arithOperators : List String :=
  ["||", "&&", "==", "!=", "<=", ">=", "<<", ">>", "+", "-", "*", "/", "%", "<", ">", "!", "~",
    "&", "|", "^", "(", ")", "?", ":"]

/-- The value of a digit in a base, if it is one. -/
def digitValue (base : Nat) (c : Char) : Option Nat :=
  let v := if c.isDigit then some (c.toNat - 48)
    else if 'a' ≤ c && c ≤ 'z' then some (c.toNat - 87)
    else if 'A' ≤ c && c ≤ 'Z' then some (c.toNat - 55)
    else none
  v.filter (· < base)

/-- Read a number written in C: its value, or `none` when it has a character that is no digit
of its base. -/
def readNumber (cs : List Char) : Option Int :=
  let (base, digits) := match cs with
    | '0' :: 'x' :: more | '0' :: 'X' :: more => (16, more)
    | '0' :: more => (8, more)
    | _ => (10, cs)
  if base == 16 && digits.isEmpty then none
  else
    digits.foldlM (fun (acc : Nat) c => (digitValue base c).map fun d => base * acc + d) 0
      |>.map Int.ofNat

/-- Cut an expression into tokens. -/
def arithTokens : Nat → List Char → Except String (List ArithToken)
  | 0, _ => .ok []
  | _ + 1, [] => .ok []
  | fuel + 1, c :: rest =>
    if c == ' ' || c == '\t' || c == '\n' then arithTokens fuel rest
    else if c.isDigit then
      let word := (c :: rest).takeWhile Char.isAlphanum
      match readNumber word with
      | some n => do
        let more ← arithTokens fuel ((c :: rest).drop word.length)
        pure (.number n :: more)
      | none => .error "expecting EOF"
    else if c.isAlpha || c == '_' then
      let word := (c :: rest).takeWhile fun d => d.isAlphanum || d == '_'
      do
        let more ← arithTokens fuel ((c :: rest).drop word.length)
        pure (.name (String.ofList word) :: more)
    else
      match arithOperators.find? fun o => o.toList.isPrefixOf (c :: rest) with
      | some o => do
        let more ← arithTokens fuel ((c :: rest).drop o.length)
        pure (.op o :: more)
      | none => .error "expecting EOF"

/-- The precedence of a binary operator; larger binds tighter. -/
def binaryPrecedence : String → Option Nat
  | "||" => some 1
  | "&&" => some 2
  | "|" => some 3
  | "^" => some 4
  | "&" => some 5
  | "==" | "!=" => some 6
  | "<" | "<=" | ">" | ">=" => some 7
  | "<<" | ">>" => some 8
  | "+" | "-" => some 9
  | "*" | "/" | "%" => some 10
  | _ => none

/-- A truth value as a number. -/
def ofBool (b : Bool) : Int := if b then 1 else 0

/-- An integer as a 64-bit two's complement word. -/
def toWord (a : Int) : Nat := (a % Nat.pow 2 64).toNat

/-- A 64-bit two's complement word as an integer. -/
def ofWord (n : Nat) : Int := if n < Nat.pow 2 63 then n else (n : Int) - Nat.pow 2 64

/-- Apply a bitwise operation of words to integers. -/
def bitwise (f : Nat → Nat → Nat) (a b : Int) : Int := ofWord (f (toWord a) (toWord b) % Nat.pow 2 64)

/-- Apply a binary operator. -/
def applyBinary (o : String) (a b : Int) : Except String Int :=
  match o with
  | "||" => .ok (ofBool (a != 0 || b != 0))
  | "&&" => .ok (ofBool (a != 0 && b != 0))
  | "|" => .ok (bitwise Nat.lor a b)
  | "^" => .ok (bitwise Nat.xor a b)
  | "&" => .ok (bitwise Nat.land a b)
  | "==" => .ok (ofBool (a == b))
  | "!=" => .ok (ofBool (a != b))
  | "<" => .ok (ofBool (a < b))
  | "<=" => .ok (ofBool (a ≤ b))
  | ">" => .ok (ofBool (a > b))
  | ">=" => .ok (ofBool (a ≥ b))
  | "<<" => .ok (a * Nat.pow 2 b.toNat)
  | ">>" => .ok (a / Nat.pow 2 b.toNat)
  | "+" => .ok (a + b)
  | "-" => .ok (a - b)
  | "*" => .ok (a * b)
  | "/" => if b == 0 then .error "division by zero" else .ok (Int.tdiv a b)
  | "%" => if b == 0 then .error "division by zero" else .ok (Int.tmod a b)
  | _ => .error "expecting primary"

mutual

/-- Read an expression whose binary operators bind at least as tight as `least`. Gives the
value and the tokens after it. -/
def arithBinary (vars : String → Int) : Nat → Nat → List ArithToken →
    Except String (Int × List ArithToken)
  | 0, _, _ => .error "expecting primary"
  | fuel + 1, least, ts => do
    let (first, rest) ← arithUnary vars fuel ts
    arithChain vars fuel least first rest

/-- Continue an expression after its first operand. -/
def arithChain (vars : String → Int) : Nat → Nat → Int → List ArithToken →
    Except String (Int × List ArithToken)
  | 0, _, _, _ => .error "expecting primary"
  | fuel + 1, least, acc, ts =>
    match ts with
    | .op o :: rest =>
      match binaryPrecedence o with
      | some p =>
        if p < least then .ok (acc, ts)
        else do
          let (rhs, after) ← arithBinary vars fuel (p + 1) rest
          let v ← applyBinary o acc rhs
          arithChain vars fuel least v after
      | none => .ok (acc, ts)
    | _ => .ok (acc, ts)

/-- Read an operand: a number, a variable, a parenthesized expression or a unary operator
applied to an operand. -/
def arithUnary (vars : String → Int) : Nat → List ArithToken → Except String (Int × List ArithToken)
  | 0, _ => .error "expecting primary"
  | fuel + 1, ts =>
    match ts with
    | .number n :: rest => .ok (n, rest)
    | .name n :: rest => .ok (vars n, rest)
    | .op "(" :: rest => do
      let (v, after) ← arithExpr vars fuel rest
      match after with
      | .op ")" :: more => .ok (v, more)
      | _ => .error "expecting ')'"
    | .op "-" :: rest => do
      let (v, after) ← arithUnary vars fuel rest
      .ok (-v, after)
    | .op "+" :: rest => arithUnary vars fuel rest
    | .op "!" :: rest => do
      let (v, after) ← arithUnary vars fuel rest
      .ok (ofBool (v == 0), after)
    | .op "~" :: rest => do
      let (v, after) ← arithUnary vars fuel rest
      .ok (-v - 1, after)
    | _ => .error "expecting primary"

/-- Read a whole expression, with the conditional operator. -/
def arithExpr (vars : String → Int) : Nat → List ArithToken → Except String (Int × List ArithToken)
  | 0, _ => .error "expecting primary"
  | fuel + 1, ts => do
    let (c, rest) ← arithBinary vars fuel 1 ts
    match rest with
    | .op "?" :: more => do
      let (a, after) ← arithExpr vars fuel more
      match after with
      | .op ":" :: more' => do
        let (b, after') ← arithExpr vars fuel more'
        .ok (if c != 0 then a else b, after')
      | _ => .error "expecting ':'"
    | _ => .ok (c, rest)

end

/-- Evaluate an expression with the values of its variables; the error is the message the
shell prints. -/
def evalArith (text : String) (vars : String → Int) : Except String Int :=
  let fail (what : String) : Except String Int :=
    .error ("arithmetic expression: " ++ what ++ ": \"" ++ text ++ "\"")
  match arithTokens (text.length + 1) text.toList with
  | .error e => fail e
  | .ok [] => .ok 0
  | .ok ts =>
    match arithExpr vars (4 * ts.length + 8) ts with
    | .ok (v, []) => .ok v
    | .ok (_, _) => fail "expecting EOF"
    | .error e => fail e

/-- The number a variable's value stands for: `0` when empty, otherwise read as in C. -/
def arithValueOf (value : String) : Int :=
  let cs := value.trimAscii.toString.toList
  match cs with
  | [] => 0
  | '-' :: more => -((readNumber more).getD 0)
  | _ => (readNumber cs).getD 0

end Shell

end ReleaseBuild
