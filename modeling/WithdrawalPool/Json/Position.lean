/-
Places in a text, as they close a message: ` at line 3 column 4`.  A place tells where a fault was
met and not what it is, so messages are compared without it.
-/
namespace WithdrawalPool

namespace Json

namespace Position

def lineMark : List Char := [' ', 'a', 't', ' ', 'l', 'i', 'n', 'e', ' ']

def columnMark : List Char := [' ', 'c', 'o', 'l', 'u', 'm', 'n', ' ']

/-- What follows a decimal number of 64 bits that the characters begin with. -/
def afterNumber? (chars : List Char) : Option (List Char) :=
  let digits := chars.takeWhile Char.isDigit
  if digits ≠ [] ∧ Nat.ofDigitChars 10 digits 0 < UInt64.size then
    some (chars.dropWhile Char.isDigit)
  else none

/-- The characters are a place from the first to the last. -/
def isPosition (chars : List Char) : Bool :=
  let rest := (lineMark.isPrefixOf? chars).bind afterNumber?
  (rest.bind columnMark.isPrefixOf?).bind afterNumber? == some []

/-- The characters without the place at their end, if there is one. -/
def dropChars : List Char → List Char
  | [] => []
  | c :: rest => if isPosition (c :: rest) then [] else c :: dropChars rest

/-- A message without the place that closes it.  Of several places the last one goes. -/
def drop (message : String) : String := String.ofList (dropChars message.toList)

theorem dropChars_of_isPosition {chars : List Char} (h : isPosition chars = true) :
    dropChars chars = [] := by
  cases chars with
  | nil => rfl
  | cons c rest => simp [dropChars, h]

/-- Characters of which no end is a place are left as they are. -/
theorem dropChars_eq_self {chars : List Char}
    (h : ∀ suffix, suffix <:+ chars → isPosition suffix = false) : dropChars chars = chars := by
  induction chars with
  | nil => rfl
  | cons c rest ih =>
    have hrest := ih fun suffix hsuffix => h suffix (hsuffix.trans (List.suffix_cons c rest))
    simp [dropChars, h _ (List.suffix_refl _), hrest]

example : isPosition " at line 3 column 4".toList = true := by decide

example : isPosition " at line 3 column 4.".toList = false := by decide

end Position

end Json

end WithdrawalPool
