/-
Amounts by key, every key without an entry holding nothing.
-/
import WithdrawalPool.SortedMap.Lemmas

namespace WithdrawalPool

universe u

/-- An amount for each key, zero for all but finitely many. -/
abbrev Tally (κ : Type u) [Ord κ] := SortedMap κ Nat

namespace Tally

variable {κ : Type u} [Ord κ]

/-- The amount at `key`. -/
def amount (t : Tally κ) (key : κ) : Nat := (t.find? key).getD 0

/-- The sum of all amounts. -/
def total (t : Tally κ) : Nat := t.values.foldr (· + ·) 0

variable [Std.TransOrd κ]

def credit (t : Tally κ) (key : κ) (n : Nat) : Tally κ := t.insert key (t.amount key + n)

/-- Takes `n` from the amount at `key`, or reports the amount there if it is smaller. -/
def debit (t : Tally κ) (key : κ) (n : Nat) : Except Nat (Tally κ) :=
  if n ≤ t.amount key then .ok (t.insert key (t.amount key - n)) else .error (t.amount key)

variable [Std.LawfulEqOrd κ]

omit [Std.TransOrd κ] [Std.LawfulEqOrd κ] in
@[simp] theorem amount_empty (key : κ) : (∅ : Tally κ).amount key = 0 := rfl

@[simp] theorem amount_insert_self (t : Tally κ) (key : κ) (n : Nat) :
    Tally.amount (t.insert key n) key = n := by
  simp [amount]

theorem amount_insert_of_ne (t : Tally κ) {key other : κ} (h : other ≠ key) (n : Nat) :
    Tally.amount (t.insert key n) other = t.amount other := by
  simp [amount, SortedMap.find?_insert_of_ne t h]

@[simp] theorem amount_credit_self (t : Tally κ) (key : κ) (n : Nat) :
    (t.credit key n).amount key = t.amount key + n :=
  amount_insert_self t key _

theorem amount_credit_of_ne (t : Tally κ) {key other : κ} (h : other ≠ key) (n : Nat) :
    (t.credit key n).amount other = t.amount other :=
  amount_insert_of_ne t h _

end Tally

end WithdrawalPool
