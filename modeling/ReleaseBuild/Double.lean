/-!
# Double-precision numbers and decimal text

A finite non-negative double is `m · 2^q` with a mantissa `m < 2^53` and an exponent
`-1074 ≤ q ≤ 971`; it is normal when `2^52 ≤ m`, and only the smallest exponent allows a
smaller mantissa. Two rules tie doubles to decimal text:

* `Double.nearest` reads a decimal `d · 10^e` as the double nearest to it, a tie going to the
  even mantissa. A value at or above `2^1024 - 2^970`, halfway between the largest double
  and `2^1024`, has no double: it reads as infinity.
* `Double.shortest` writes a double as the decimal with the fewest significant digits that
  reads back as it, and of those the nearest. A decimal reads back as the double when it lies
  within half the gap to either neighbour; below a power of two the gap to the lower
  neighbour is half as wide. The ends count when the mantissa is even, since a tie there goes
  to it.

All arithmetic is exact, on natural numbers.
-/

namespace ReleaseBuild

/-- A non-negative rational number: a numerator over a positive denominator. -/
structure Ratio where
  num : Nat
  den : Nat
  deriving DecidableEq, Repr

namespace Ratio

/-- A natural number as a ratio. -/
def ofNat (n : Nat) : Ratio := ⟨n, 1⟩

/-- `base ^ e` for an integer exponent. -/
def power (base : Nat) (e : Int) : Ratio :=
  if 0 ≤ e then ⟨Nat.pow base e.toNat, 1⟩ else ⟨1, Nat.pow base e.natAbs⟩

/-- The product of two ratios. -/
def mul (a b : Ratio) : Ratio := ⟨a.num * b.num, a.den * b.den⟩

/-- Whether one ratio is at most another. -/
def le (a b : Ratio) : Bool := a.num * b.den ≤ b.num * a.den

/-- Whether one ratio is below another. -/
def lt (a b : Ratio) : Bool := a.num * b.den < b.num * a.den

/-- The largest natural number at or below a ratio. -/
def floor (a : Ratio) : Nat := a.num / a.den

/-- The natural number nearest to a ratio, a tie going to the even one. -/
def roundEven (a : Ratio) : Nat :=
  let q := a.num / a.den
  let r := a.num % a.den
  if 2 * r < a.den then q
  else if a.den < 2 * r then q + 1
  else if q % 2 == 0 then q else q + 1

/-- The exponent of the largest power of ten at or below a positive ratio. A numerator of
`a` digits over a denominator of `b` digits lies between `10^(a-b-1)` and `10^(a-b+1)`, so the
exponent is `a - b` or one less. -/
def log10 (a : Ratio) : Int :=
  let t : Int := (Nat.toDigits 10 a.num).length - (Nat.toDigits 10 a.den).length
  if (power 10 t).le a then t else t - 1

end Ratio

/-- A finite non-negative double, `mantissa · 2^exponent`. -/
structure Double where
  mantissa : Nat
  exponent : Int
  deriving DecidableEq, Repr

namespace Double

/-- The exponent of the subnormal doubles and of the smallest normal ones. -/
def minExponent : Int := -1074

/-- The exponent of the largest doubles. -/
def maxExponent : Int := 971

/-- The smallest mantissa of a normal double, `2^52`. -/
def hidden : Nat := Nat.pow 2 52

/-- The number a double stands for. -/
def value (x : Double) : Ratio := (Ratio.ofNat x.mantissa).mul (Ratio.power 2 x.exponent)

/-- The double nearest to `digits · 10^e`, a tie going to the even mantissa; `none` when the
value reads as infinity. The exponent is first the one that gives the value a mantissa of 53
bits, found from the bit lengths of numerator and denominator, which fix it up to one; it is
at least the smallest exponent, where the mantissa may be shorter. A mantissa that rounds up
to `2^53` moves to the next exponent. -/
def nearest (digits : Nat) (e : Int) : Option Double :=
  if digits = 0 then some ⟨0, minExponent⟩
  else
    let v := (Ratio.ofNat digits).mul (Ratio.power 10 e)
    let guess : Int := (v.num.log2 : Int) - (v.den.log2 : Int) - 52
    let q := if (v.mul (Ratio.power 2 (-guess))).floor < hidden then guess - 1 else guess
    let q := max q minExponent
    let m := (v.mul (Ratio.power 2 (-q))).roundEven
    let (m, q) := if m = 2 * hidden then (hidden, q + 1) else (m, q)
    if maxExponent < q then none else some ⟨m, q⟩

/-- The decimals that read back as a double: they lie between the two bounds, which count
themselves when the third component is true. -/
def readBack (x : Double) : Ratio × Ratio × Bool :=
  let unit := Ratio.power 2 (x.exponent - 2)
  let below := if x.mantissa = hidden ∧ minExponent < x.exponent then 1 else 2
  ((Ratio.ofNat (4 * x.mantissa - below)).mul unit, (Ratio.ofNat (4 * x.mantissa + 2)).mul unit,
    x.mantissa % 2 == 0)

/-- Whether a number reads back as the double. -/
def readsBack (x : Double) (c : Ratio) : Bool :=
  let (lo, hi, ends) := x.readBack
  if ends then lo.le c && c.le hi else lo.lt c && c.lt hi

/-- The decimal `c · 10^k` of `n` significant digits that reads back as a positive double,
if there is one: of the two such decimals around the double, the one that reads back, or the
nearer when both do. -/
def candidate (x : Double) (n : Nat) : Option (Nat × Int) :=
  let v := x.value
  let k : Int := v.log10 + 1 - n
  let scaled := v.mul (Ratio.power 10 (-k))
  let c := scaled.floor
  let decimal (d : Nat) := (Ratio.ofNat d).mul (Ratio.power 10 k)
  match x.readsBack (decimal c), x.readsBack (decimal (c + 1)) with
  | true, true =>
    if 2 * (scaled.num - c * scaled.den) ≤ scaled.den then some (c, k) else some (c + 1, k)
  | true, false => some (c, k)
  | false, true => some (c + 1, k)
  | false, false => none

/-- The shortest decimal that reads back as a double, as significant digits `d₁d₂…` and the
position of the point: the decimal is `0.d₁d₂… × 10^point`. Zero has no digits. Seventeen
digits always suffice. -/
def shortest (x : Double) : List Char × Int :=
  if x.mantissa = 0 then ([], 0)
  else
    match (List.range 17).findSome? fun i => x.candidate (i + 1) with
    | some (c, k) =>
      let ds := Nat.toDigits 10 c
      ((ds.reverse.dropWhile (· == '0')).reverse, k + ds.length)
    | none => ([], 0)

end Double

end ReleaseBuild
