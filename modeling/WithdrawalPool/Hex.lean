/-
Bytes written as pairs of hexadecimal digits.  Digits of either case are read, lower case is
written.
-/
namespace WithdrawalPool

namespace Hex

def isDigit (c : Char) : Bool :=
  c.isDigit || ('a' ≤ c && c ≤ 'f') || ('A' ≤ c && c ≤ 'F')

/-- The value of a digit, which is below sixteen for every character that `isDigit` admits. -/
def value (c : Char) : Nat :=
  if c.isDigit then c.toNat - '0'.toNat
  else if 'a' ≤ c then c.toNat - 'a'.toNat + 10
  else c.toNat - 'A'.toNat + 10

/-- The bytes that successive pairs of digits stand for; a digit without a partner is left out. -/
def bytes : List Char → List UInt8
  | high :: low :: rest => UInt8.ofNat (16 * value high + value low) :: bytes rest
  | _ => []

/-- Two lower-case digits for each byte. -/
def digits (data : List UInt8) : List Char :=
  data.flatMap fun byte => [(byte.toNat / 16).digitChar, (byte.toNat % 16).digitChar]

theorem toNat_le_of_isDigit {c : Char} (h : isDigit c = true) : c.toNat ≤ 127 := by
  simp only [isDigit, Char.isDigit, Bool.or_eq_true, Bool.and_eq_true, decide_eq_true_eq] at h
  rcases h with (⟨_, h⟩ | ⟨_, h⟩) | ⟨_, h⟩
  all_goals exact Nat.le_trans h (by decide)

theorem length_bytes (l : List Char) : (bytes l).length = l.length / 2 := by
  fun_induction bytes l with
  | case1 high low rest ih =>
    simp only [List.length_cons, ih]
    omega
  | case2 l h =>
    match l, h with
    | [], _ => simp
    | [_], _ => simp
    | high :: low :: rest, h => exact absurd rfl (h high low rest)

end Hex

end WithdrawalPool
