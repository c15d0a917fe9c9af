/-
Whose balance a call of the bank changes.  A collection and a refund change one balance of one
account, and a refund that is refused changes none, although it may leave vouchers minted.
-/
import WithdrawalPool.Proofs.Bank

namespace WithdrawalPool

namespace Book

variable {b : Book} {account other : AccountId} {n : Nat}

theorem balance_collect (h : n ≤ b.balance account) (origin : Origin) :
    (b.collect origin account n).balance account + n = b.balance account := by
  have hpaid : (b.collect origin account n).balance account = b.balance account - n := by
    cases origin <;> exact Tally.amount_insert_self b.balances account _
  omega

theorem balance_collect_of_ne (b : Book) (origin : Origin) (h : other ≠ account) (n : Nat) :
    (b.collect origin account n).balance other = b.balance other := by
  cases origin <;> exact Tally.amount_insert_of_ne b.balances h _

theorem balance_fund_of_ne (b : Book) (h : other ≠ account) (n : Nat) :
    (b.fund account n).balance other = b.balance other :=
  Tally.amount_credit_of_ne b.balances h n

end Book

namespace Ledger

/-- Every balance is the same afterwards, but that of one account in one denomination. -/
def KeepsOthers (l : Ledger) (account : AccountId) (d : Denom) (l' : Ledger) : Prop :=
  ∀ other e, other ≠ account ∨ e ≠ d → l'.balance other e = l.balance other e

variable {l l' : Ledger} {account : AccountId} {coin : Coin} {origin : Origin}

theorem keepsOthers_refl (l : Ledger) (account : AccountId) (d : Denom) :
    l.KeepsOthers account d l := fun _ _ _ => rfl

/-- A new book for one denomination keeps all balances that it does not change itself. -/
theorem keepsOthers_setBook {d : Denom} {b : Book}
    (h : ∀ other, other ≠ account → b.balance other = (l.book d).balance other) :
    l.KeepsOthers account d (l.setBook d b) := by
  intro other e hother
  by_cases he : e = d
  · subst he
    rw [balance, book_setBook_self]
    exact h other (hother.resolve_right fun hne => hne rfl)
  · rw [balance, book_setBook_of_ne l he]
    rfl

theorem balance_of_collects (h : Collects account coin l origin l') :
    l'.balance account coin.denom + coin.amount = l.balance account coin.denom ∧
      l.KeepsOthers account coin.denom l' := by
  obtain ⟨hcovered, rfl⟩ := setBook_of_collects h
  constructor
  · rw [balance, book_setBook_self]
    exact Book.balance_collect hcovered origin
  · exact keepsOthers_setBook fun other hne => Book.balance_collect_of_ne _ origin hne _

theorem balance_of_refunds (h : Refunds account coin l origin l') :
    l'.balance account coin.denom = l.balance account coin.denom + coin.amount ∧
      l.KeepsOthers account coin.denom l' := by
  obtain ⟨_, rfl⟩ := setBook_of_refunds h
  constructor
  · rw [balance, book_setBook_self]
    exact Book.balance_refund _ origin account _
  · exact keepsOthers_setBook fun other hne => Book.balance_refund_of_ne _ origin hne _

/-- The most that a refused refund leaves behind is a mint, and minted coins are in custody. -/
theorem balance_of_refundRefused {e : CustodyError}
    (h : RefundRefused account coin l origin e l') (other : AccountId) (d : Denom) :
    l'.balance other d = l.balance other d := by
  cases h with
  | native hunlock => rw [run_attempt_eq_error hunlock]
  | mint hmint => rw [run_attempt_eq_error hmint]
  | unlock hmint hunlock =>
      obtain rfl := mint_eq_ok (run_attempt_eq_ok hmint)
      rw [run_attempt_eq_error hunlock]
      by_cases hd : d = coin.denom
      · rw [hd, balance, book_setBook_self]
        rfl
      · rw [balance, book_setBook_of_ne l hd]
        rfl

end Ledger

end WithdrawalPool
