/-
Amounts are natural numbers of any size, written in decimal.
-/
namespace WithdrawalPool

namespace Amount

/-- The decimal digits of an amount, with no sign and no leading zero. -/
def text (n : Nat) : String := toString n

def isDigitOrSpacer (c : Char) : Bool := c.isDigit || c == '_'

/-- Drops one leading plus sign. -/
def unsigned : List Char → List Char
  | '+' :: rest => rest
  | chars => chars

/-- Reads an amount: one plus sign may come first, then a digit, then digits and underscores.  The
underscores only space the digits out. -/
def ofText? (s : String) : Option Nat :=
  match unsigned s.toList with
  | [] => none
  | c :: rest =>
    if c.isDigit && rest.all isDigitOrSpacer then
      some (Nat.ofDigitChars 10 ((c :: rest).filter Char.isDigit) 0)
    else none

end Amount

end WithdrawalPool
