/-!
Nonnegative binary floating-point numbers with 53 significant bits, as exact integers.

* `Ratio` is a quotient of natural numbers, in which decimals and binary numbers are compared
  exactly.
* `Binary64.ofRatio?` rounds a quotient to the nearest number, a tie to the even one.
* `Binary64.shortest` gives the fewest decimal digits that round back to a number, and of those the
  digits nearest to it.
-/

namespace Concise

/-- A quotient of natural numbers. -/
structure Ratio where
  numerator : Nat
  denominator : Nat := 1
deriving DecidableEq, Inhabited

namespace Ratio

/-- A natural number times a power of a base. -/
def scaled (base coefficient : Nat) : Int → Ratio
  | .ofNat e => ⟨coefficient * Nat.pow base e, 1⟩
  | .negSucc e => ⟨coefficient, Nat.pow base (e + 1)⟩

/-- Whether one quotient is at most another. -/
def le (a b : Ratio) : Bool := a.numerator * b.denominator ≤ b.numerator * a.denominator

/-- The difference of two quotients, at least zero. -/
def sub (a b : Ratio) : Ratio :=
  ⟨a.numerator * b.denominator - b.numerator * a.denominator, a.denominator * b.denominator⟩

/-- The whole part of a quotient divided by a power of a base. -/
def floorDiv (a : Ratio) (base : Nat) : Int → Nat
  | .ofNat e => a.numerator / (a.denominator * Nat.pow base e)
  | .negSucc e => a.numerator * Nat.pow base (e + 1) / a.denominator

end Ratio

/-- A nonnegative number `mantissa · 2 ^ exponent`. -/
structure Binary64 where
  mantissa : Nat
  exponent : Int
deriving DecidableEq, Inhabited

namespace Binary64

/-- The least exponent. -/
def leastExponent : Int := -1074

/-- The greatest exponent. -/
def greatestExponent : Int := 971

/-- The exact value of a number. -/
def ratio (x : Binary64) : Ratio := .scaled 2 x.mantissa x.exponent

/-- The number with a mantissa that may have one bit too many. -/
def normalize? (mantissa : Nat) (exponent : Int) : Option Binary64 :=
  let x : Binary64 :=
    if mantissa == Nat.pow 2 53 then ⟨Nat.pow 2 52, exponent + 1⟩ else ⟨mantissa, exponent⟩
  if greatestExponent < x.exponent then none else some x

/-- The exponent at which a positive quotient has 53 bits before the point, or the least one. -/
def exponentFor (value : Ratio) : Int :=
  let e : Int := (value.numerator.log2 : Int) - (value.denominator.log2 : Int) - 53
  max leastExponent (if Nat.pow 2 53 ≤ value.floorDiv 2 e then e + 1 else e)

/-- The number nearest to a quotient, a tie to the even one; `none` if it is too large. -/
def ofRatio? (value : Ratio) : Option Binary64 :=
  if value.numerator == 0 then some ⟨0, leastExponent⟩
  else
    let e := exponentFor value
    let whole := value.floorDiv 2 e
    let rest := value.sub (.scaled 2 whole e)
    let half := Ratio.scaled 2 1 (e - 1)
    if rest.le half && !(half.le rest && whole % 2 == 1) then normalize? whole e
    else normalize? (whole + 1) e

/-! ### Decimal digits -/

/-- The least real that rounds to a number, as far as it does; the number must be positive. -/
def lower (x : Binary64) : Ratio :=
  if x.mantissa == Nat.pow 2 52 && leastExponent < x.exponent then
    .scaled 2 (4 * x.mantissa - 1) (x.exponent - 2)
  else .scaled 2 (2 * x.mantissa - 1) (x.exponent - 1)

/-- The greatest real that rounds to a number, as far as it does. -/
def upper (x : Binary64) : Ratio := .scaled 2 (2 * x.mantissa + 1) (x.exponent - 1)

/-- Whether a quotient rounds to a number. The ends of the interval do if the mantissa is even. -/
def covers (x : Binary64) (value : Ratio) : Bool :=
  if x.mantissa % 2 == 0 then x.lower.le value && value.le x.upper
  else !value.le x.lower && !x.upper.le value

/-- The number of decimal digits of a natural number. -/
def digitCount (n : Nat) : Nat := (Nat.toDigits 10 n).length

/-- The place of the decimal point before the first digit of a positive value: the value is below
`10 ^ point` and not below `10 ^ (point - 1)`. -/
def decimalPoint (value : Ratio) : Int :=
  let whole := value.numerator / value.denominator
  if 0 < whole then digitCount whole
  else
    match (List.range 400).find? fun k => value.denominator ≤ value.numerator * Nat.pow 10 (k + 1) with
    | some k => -(k : Int)
    | none => -400

/-- Of the two neighbours of a number with the given number of digits, the nearest that rounds to
it. -/
def onGrid? (x : Binary64) (point : Int) (digits : Nat) : Option Nat :=
  let unit := point - digits
  let below := x.ratio.floorDiv 10 unit
  let low := Ratio.scaled 10 below unit
  let high := Ratio.scaled 10 (below + 1) unit
  match x.covers low, x.covers high with
  | true, true => if (x.ratio.sub low).le (high.sub x.ratio) then some below else some (below + 1)
  | true, false => some below
  | false, true => some (below + 1)
  | false, false => none

/-- Drops the zeros at the end of a natural number. -/
def dropZeros : Nat → Nat → Nat
  | 0, n => n
  | fuel + 1, n => if n % 10 == 0 then dropZeros fuel (n / 10) else n

/-- The digits of a decimal, and the place of its point before the first of them. -/
structure Decimal where
  digits : Nat
  point : Int
deriving DecidableEq, Inhabited

/-- The fewest digits that round to a positive number. -/
def shortest (x : Binary64) : Decimal :=
  let point := decimalPoint x.ratio
  match (List.range 17).findSome? fun n => (x.onGrid? point (n + 1)).map fun d => (n + 1, d) with
  | some (count, d) =>
      { digits := dropZeros 20 d, point := point + (digitCount d : Int) - count }
  | none => { digits := 0, point := 0 }

end Binary64

end Concise
