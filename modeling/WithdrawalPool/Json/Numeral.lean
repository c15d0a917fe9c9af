/-
Numbers as JSON spells them.  A numeral keeps its digits, so that nothing is lost or rounded
before somebody asks for its value.
-/
namespace WithdrawalPool

namespace Json

/-- A JSON number: the digits before and after the point, and the exponent. -/
structure Numeral where
  negative : Bool := false
  whole : List Char
  fraction : List Char := []
  exponent : Option Int := none
deriving DecidableEq, Repr

namespace Numeral

def ofNat (n : Nat) : Numeral := { whole := Nat.toDigits 10 n }

/-- Splits a leading sign off: whether it is a minus sign, and what follows. -/
def sign (mark : Char) : List Char → Bool × List Char
  | c :: rest => if c = mark then (true, rest) else (false, c :: rest)
  | [] => (false, [])

/-- Reads the digits after a decimal point, if there is one, and tells what is left. -/
def readFraction : List Char → Option (List Char × List Char)
  | '.' :: rest =>
    if rest.takeWhile Char.isDigit = [] then none
    else some (rest.takeWhile Char.isDigit, rest.dropWhile Char.isDigit)
  | rest => some ([], rest)

/-- Reads an exponent that takes up the rest of the text. -/
def readExponent : List Char → Option (Option Int)
  | [] => some none
  | e :: rest =>
    let (down, unsigned) := sign '-' rest
    let digits := if down then unsigned else (sign '+' rest).2
    if (e = 'e' ∨ e = 'E') ∧ digits ≠ [] ∧ digits.all Char.isDigit then
      let size : Int := Nat.ofDigitChars 10 digits 0
      some (some (if down then -size else size))
    else none

/-- Reads a whole text as a numeral.  No zero stands in front of another digit. -/
def ofChars? (chars : List Char) : Option Numeral := do
  let (negative, unsigned) := sign '-' chars
  let whole := unsigned.takeWhile Char.isDigit
  if whole = [] ∨ (whole.head? = some '0' ∧ whole.length ≠ 1) then none
  let (fraction, rest) ← readFraction (unsigned.dropWhile Char.isDigit)
  let exponent ← readExponent rest
  return { negative := negative, whole := whole, fraction := fraction, exponent := exponent }

/-- The value of a numeral of digits alone. -/
def natural? (n : Numeral) : Option Nat :=
  if n.negative = false ∧ n.fraction = [] ∧ n.exponent = none then
    some (Nat.ofDigitChars 10 n.whole 0)
  else none

/-- The value of a numeral of digits alone that fits into 64 bits. -/
def uint64? (n : Numeral) : Option UInt64 :=
  match n.natural? with
  | some value => if value < UInt64.size then some (UInt64.ofNat value) else none
  | none => none

def spell (n : Numeral) : List Char :=
  (if n.negative then ['-'] else []) ++ n.whole ++
    (if n.fraction = [] then [] else '.' :: n.fraction) ++
    match n.exponent with
    | none => []
    | some e => 'e' :: (toString e).toList

/-- Appends digits to a significand while it fits into 64 bits, and tells which are left over. -/
def absorb (significand : Nat) : List Char → Nat × List Char
  | [] => (significand, [])
  | d :: rest =>
    if Nat.ofDigitChars 10 [d] significand < UInt64.size then
      absorb (Nat.ofDigitChars 10 [d] significand) rest
    else (significand, d :: rest)

/-- The leading digits as a significand of at most 64 bits, and the power of ten that goes with
it. -/
def scaled (n : Numeral) : Nat × Int :=
  let (significand, dropped) := absorb 0 n.whole
  let (significand, ignored) := absorb significand n.fraction
  (significand,
    dropped.length - (n.fraction.length - ignored.length) + n.exponent.getD 0)

/-- The nearest number of 53 significant bits, the even one of two. -/
def round53 (n : Nat) : Nat :=
  let unit := Nat.pow 2 (n.log2 - 52)
  let quotient := n / unit
  let rest := n % unit
  if unit < 2 * rest ∨ (unit = 2 * rest ∧ quotient % 2 = 1) then (quotient + 1) * unit
  else quotient * unit

/-- The least number that double precision rounds to infinity. -/
def overflow : Nat := Nat.pow 2 1024 - Nat.pow 2 970

/-- Whether the product of the significand and its power of ten, each in double precision, is
finite in double precision. -/
def inDoubleRange (n : Numeral) : Bool :=
  let (significand, power) := n.scaled
  significand == 0 || power ≤ 0 ||
    (power ≤ 308 &&
      decide (round53 significand * round53 (Nat.pow 10 power.toNat) < overflow))

end Numeral

end Json

end WithdrawalPool
