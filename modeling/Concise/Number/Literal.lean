import Concise.Number.Binary64
import Concise.Token.Numeral

/-!
The value of a numeral and its shortest spelling.

A whole number below a thousand is written in plain digits. Any other starts from the fewest digits
that read back, positional from 1e-6 to 1e21 and without a zero before the point, and is then
written in hexadecimal, with an exponent, or with the point moved, wherever that is strictly
shorter. -/

namespace Concise.Numeral

/-! ### Value -/

/-- The number that digits write in a base. -/
def natural (base : Nat) (digits : List Char) : Nat :=
  digits.foldl (fun n c => base * n + digitValue c) 0

/-- Splits a decimal at its exponent. -/
def splitExponent (cs : List Char) : List Char × Int :=
  match cs.span fun c => c != 'e' && c != 'E' with
  | (digits, _ :: '-' :: exponent) => (digits, -(natural 10 exponent : Int))
  | (digits, _ :: '+' :: exponent) => (digits, natural 10 exponent)
  | (digits, _ :: exponent) => (digits, natural 10 exponent)
  | (digits, []) => (digits, 0)

/-- The value of a decimal coefficient and exponent; one far beyond the range counts as a value just
beyond it. -/
def decimalRatio (coefficient : Nat) (exponent : Int) : Ratio :=
  let size := exponent + Binary64.digitCount coefficient
  if coefficient == 0 then ⟨0, 1⟩
  else if 400 < size then .scaled 10 1 400
  else if size < -400 then .scaled 10 1 (-400)
  else .scaled 10 coefficient exponent

/-- The value of a decimal. -/
def decimal (cs : List Char) : Ratio :=
  let (digits, exponent) := splitExponent cs
  let (whole, fraction) := digits.span (· != '.')
  let fraction := fraction.drop 1
  decimalRatio (natural 10 (whole ++ fraction)) (exponent - fraction.length)

/-- The exact value of a numeral. -/
def exactValue (raw : String) : Ratio :=
  match raw.toList.filter (· != '_') with
  | '0' :: c :: digits =>
      if c == 'x' || c == 'X' then ⟨natural 16 digits, 1⟩
      else if c == 'o' || c == 'O' then ⟨natural 8 digits, 1⟩
      else if c == 'b' || c == 'B' then ⟨natural 2 digits, 1⟩
      else if (c :: digits).all isOctalDigit then ⟨natural 8 (c :: digits), 1⟩
      else decimal ('0' :: c :: digits)
  | cs => decimal cs

/-- The value of a numeral; `none` if it is too large to be finite. -/
def value? (raw : String) : Option Binary64 := Binary64.ofRatio? (exactValue raw)

/-- The value of a big integer without its last letter. -/
def bigValue (raw : String) : Nat :=
  let value := exactValue (String.ofList (raw.toList.filter (· != 'n')))
  value.numerator / value.denominator

/-! ### Spelling -/

/-- The decimal digits of a natural number. -/
def digits (n : Nat) : List Char := Nat.toDigits 10 n

/-- The decimal spelling of an integer. -/
def integer : Int → List Char
  | .ofNat n => digits n
  | .negSucc n => '-' :: digits (n + 1)

/-- The spelling of a decimal: positional up to 21 places before the point and 6 zeros after it. -/
def spell (d : Binary64.Decimal) : List Char :=
  let ds := digits d.digits
  let count : Int := ds.length
  if count ≤ d.point && d.point ≤ 21 then ds ++ List.replicate (d.point - count).toNat '0'
  else if 0 < d.point && d.point ≤ 21 then
    ds.take d.point.toNat ++ '.' :: ds.drop d.point.toNat
  else if -6 < d.point && d.point ≤ 0 then
    '0' :: '.' :: (List.replicate (-d.point).toNat '0' ++ ds)
  else
    let fraction := if ds.length == 1 then [] else '.' :: ds.drop 1
    let exponent := d.point - 1
    ds.take 1 ++ fraction ++ 'e' :: ((if exponent < 0 then [] else ['+']) ++ integer exponent)

/-- The shorter of two spellings, the first if they are of one length. -/
def shorter (a b : List Char) : List Char := if b.length < a.length then b else a

/-- The spelling without a zero before the point and without the sign of a positive exponent. -/
def trim (cs : List Char) : List Char :=
  let cs :=
    match cs with
    | '0' :: '.' :: rest => '.' :: rest
    | _ => cs
  cs.filter (· != '+')

/-- A fraction that begins with a zero, with its digits before an exponent. -/
def withoutLeadingZeros (cs : List Char) : List Char :=
  match cs with
  | '.' :: '0' :: rest =>
      let kept := rest.dropWhile (· == '0')
      shorter cs (kept ++ 'e' :: '-' :: digits (rest.length + 1))
  | _ => cs

/-- A spelling that ends in zeros, with an exponent for them. -/
def withoutTrailingZeros (cs : List Char) : List Char :=
  let zeros := (cs.reverse.takeWhile (· == '0')).length
  if zeros == 0 then cs else shorter cs (cs.take (cs.length - zeros) ++ 'e' :: digits zeros)

/-- A point before an exponent moved to the end of the digits. -/
def withoutPoint (cs : List Char) : List Char :=
  match cs.span (· != '.') with
  | (whole, '.' :: rest) =>
      match rest.span (· != 'e') with
      | (fraction, 'e' :: exponent) =>
          let old : Int :=
            match exponent with
            | '-' :: ds => -(natural 10 ds : Int)
            | ds => natural 10 ds
          shorter cs (whole ++ fraction ++ 'e' :: integer (old - fraction.length))
      | _ => cs
  | _ => cs

/-- The hexadecimal spelling of a natural number. -/
def hexadecimal (n : Nat) : List Char := '0' :: 'x' :: Nat.toDigits 16 (min n (Nat.pow 2 128 - 1))

/-- The whole number that a number is. -/
def whole? (x : Binary64) : Option Nat :=
  let r := x.ratio
  if r.numerator % r.denominator == 0 then some (r.numerator / r.denominator) else none

/-- The shortest spelling of a number that is not a whole number below a thousand. -/
def short (x : Binary64) : List Char :=
  let plain := trim (spell x.shortest)
  match whole? x with
  | some n =>
      let hex := hexadecimal n
      if hex.length < plain.length then withoutPoint hex
      else withoutPoint (withoutTrailingZeros plain)
  | none => withoutPoint (withoutTrailingZeros (withoutLeadingZeros plain))

/-- The spelling of a number. -/
def print (x : Binary64) : String :=
  String.ofList <|
    match whole? x with
    | some n => if n < 1000 then digits n else short x
    | none => short x

end Concise.Numeral
