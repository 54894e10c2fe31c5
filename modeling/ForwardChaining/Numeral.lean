namespace ForwardChaining

/-- A number as it is written. -/
inductive Numeral where
  /-- A sign, the digits without the point, and the power of ten they are scaled by. -/
  | finite (negative : Bool) (digits : Nat) (exponent : Int)
  | infinite (negative : Bool)
  | notANumber
deriving DecidableEq

namespace Numeral

/-- The number that decimal digits spell. -/
def digitsValue (digits : List Char) : Nat :=
  digits.foldl (fun value digit => value * 10 + (digit.toNat - '0'.toNat)) 0

/-- An optional sign, as whether it is a minus, and what is after it. -/
def sign : List Char → Bool × List Char
  | '-' :: rest => (true, rest)
  | '+' :: rest => (false, rest)
  | rest => (false, rest)

/-- An exponent that goes to the end: nothing, or a mark, an optional sign and some digits. -/
def exponent? : List Char → Option Int
  | [] => some 0
  | mark :: rest =>
    let (negative, digits) := sign rest
    if (mark = 'e' || mark = 'E') && !digits.isEmpty && digits.all Char.isDigit then
      some (if negative then -(digitsValue digits) else digitsValue digits)
    else
      none

/-- Digits with at most one point among them, at least one digit in all, and an exponent. -/
def decimal? (negative : Bool) (chars : List Char) : Option Numeral :=
  let whole := chars.takeWhile Char.isDigit
  let (fraction, rest) :=
    match chars.dropWhile Char.isDigit with
    | '.' :: rest => (rest.takeWhile Char.isDigit, rest.dropWhile Char.isDigit)
    | rest => ([], rest)
  if whole.isEmpty && fraction.isEmpty then
    none
  else
    (exponent? rest).map fun exponent =>
      .finite negative (digitsValue (whole ++ fraction)) (exponent - fraction.length)

/-- The numeral that a text spells: a decimal, `inf`, `infinity` or `nan`, in either case and with
    an optional sign. -/
def parse? (text : String) : Option Numeral :=
  let (negative, chars) := sign text.toList
  let word := chars.map Char.toLower
  if word = "inf".toList || word = "infinity".toList then some (.infinite negative)
  else if word = "nan".toList then some .notANumber
  else decimal? negative chars

/-- A quotient rounded to the nearest integer, a tie going to the even one. -/
def roundedQuotient (numerator denominator : Nat) : Nat :=
  let quotient := numerator / denominator
  let remainder := numerator % denominator
  if 2 * remainder < denominator || (2 * remainder = denominator && quotient % 2 = 0) then
    quotient
  else
    quotient + 1

/-- A fraction divided by a power of two. -/
def scaled (numerator denominator : Nat) (power : Int) : Nat × Nat :=
  if 0 ≤ power then (numerator, denominator * Nat.pow 2 power.toNat)
  else (numerator * Nat.pow 2 (-power).toNat, denominator)

/-- The binary number with 53 significant bits nearest to a fraction, as its significand and its
    power of two. The power is not below -1074, so a small number has fewer bits. -/
def nearestBinary (numerator denominator : Nat) : Nat × Int :=
  let guess : Int := (numerator.log2 : Int) - denominator.log2 - 53
  let (top, bottom) := scaled numerator denominator guess
  let power := max (-1074) (if top < bottom * Nat.pow 2 53 then guess else guess + 1)
  let (top, bottom) := scaled numerator denominator power
  (roundedQuotient top bottom, power)

/-- The number of seconds as nanoseconds, rounded first to a binary number of double precision and
    then to the nearest nanosecond. There is none for what is below zero or not below two to the
    64. The digits are counted first, so that no power of ten is taken that cannot matter. -/
def nanoseconds? : Numeral → Option Nat
  | .infinite _ | .notANumber => none
  | .finite negative digits exponent =>
    let magnitude := exponent + (Nat.toDigits 10 digits).length
    if digits = 0 || magnitude < -400 then
      some 0
    else if 400 < magnitude then
      none
    else
      let (numerator, denominator) :=
        if 0 ≤ exponent then (digits * Nat.pow 10 exponent.toNat, 1)
        else (digits, Nat.pow 10 (-exponent).toNat)
      let (significand, power) := nearestBinary numerator denominator
      let (top, bottom) := scaled significand 1 (-power)
      if (negative && significand ≠ 0) || bottom * Nat.pow 2 64 ≤ top then none
      else some (roundedQuotient (top * 1000000000) bottom)

end Numeral

end ForwardChaining
