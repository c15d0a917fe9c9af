/-
What a log tells of the coins: which were issued, and which transfers took theirs and were not paid
back.  The book of a denomination can be held against it.
-/
import Mathlib.Algebra.GroupWithZero.Nat
import WithdrawalPool.Proofs.History

namespace WithdrawalPool

namespace Deed

def submittedAs (id : UInt64) : Deed → Option Denom
  | .submitted other d => if other = id then some d else none
  | _ => none

def removedTransfer : Deed → Option Transfer
  | .removed t => some t
  | _ => none

def fundedAmount (d : Denom) : Deed → Option Nat
  | .funded _ coin => if coin.denom = d then some coin.amount else none
  | _ => none

end Deed

namespace Book

/-- The book agrees with a history that issued so many coins and has so many of them outstanding:
submitted, and not paid back. -/
def Accounts (b : Book) (d : Denom) (outstanding issued : Nat) : Prop :=
  if d.IsVoucher then b.custody = 0 ∧ b.supply + outstanding = issued
  else b.custody = outstanding ∧ b.supply = issued

variable {b : Book} {d : Denom} {origin : Origin} {account : AccountId} {m n outstanding : Nat}

theorem accounts_empty (d : Denom) : Accounts {} d 0 0 := by
  unfold Accounts
  split <;> exact ⟨rfl, rfl⟩

theorem Accounts.fund (h : b.Accounts d outstanding m) (account : AccountId) (n : Nat) :
    (b.fund account n).Accounts d outstanding (n + m) := by
  have hsupply : (b.fund account n).supply = b.supply + n := rfl
  have hcustody : (b.fund account n).custody = b.custody := rfl
  by_cases hvoucher : d.IsVoucher
  · rw [Accounts, if_pos hvoucher] at h ⊢
    omega
  · rw [Accounts, if_neg hvoucher] at h ⊢
    omega

/-- What an account pays is outstanding from then on. -/
theorem Accounts.collect (h : b.Accounts d outstanding m) (hbalanced : b.Balanced)
    (hle : n ≤ b.balance account) (horigin : origin = .bridged ↔ d.IsVoucher) :
    (b.collect origin account n).Accounts d (n + outstanding) m := by
  cases origin with
  | native =>
      have hnative : ¬ d.IsVoucher := by
        rw [← horigin]
        exact Origin.noConfusion
      have hcustody : (b.collect .native account n).custody = b.custody + n := rfl
      have hsupply : (b.collect .native account n).supply = b.supply := rfl
      rw [Accounts, if_neg hnative] at h ⊢
      omega
  | bridged =>
      have hsupply := hbalanced.supply_collect hle
      have hcustody : (b.collect .bridged account n).custody = b.custody := rfl
      rw [Accounts, if_pos (horigin.1 rfl)] at h ⊢
      omega

/-- What an account is paid back is no longer outstanding. -/
theorem Accounts.refund (h : b.Accounts d (n + outstanding) m)
    (horigin : origin = .bridged ↔ d.IsVoucher) (account : AccountId) :
    (b.refund origin account n).Accounts d outstanding m := by
  cases origin with
  | native =>
      have hnative : ¬ d.IsVoucher := by
        rw [← horigin]
        exact Origin.noConfusion
      have hcustody : (b.refund .native account n).custody = b.custody - n := rfl
      have hsupply : (b.refund .native account n).supply = b.supply := rfl
      rw [Accounts, if_neg hnative] at h ⊢
      omega
  | bridged =>
      have hcustody : (b.refund .bridged account n).custody = b.custody := rfl
      have hsupply : (b.refund .bridged account n).supply = b.supply + n := rfl
      rw [Accounts, if_pos (horigin.1 rfl)] at h ⊢
      omega

end Book

namespace Bridge

/-- The denomination that the transfer with the id was submitted in. -/
def submittedIn (log : List Deed) (id : UInt64) : Option Denom :=
  log.findSome? (Deed.submittedAs id)

/-- The transfers that were removed, the latest first. -/
def removedTransfers (log : List Deed) : List Transfer := log.filterMap Deed.removedTransfer

/-- How much of a denomination was issued to accounts. -/
def fundedIn (log : List Deed) (d : Denom) : Nat := (log.filterMap (Deed.fundedAmount d)).sum

/-- The amounts and fees of those transfers in the list that were submitted in a denomination. -/
def valueIn (log : List Deed) (d : Denom) (ts : List Transfer) : Nat :=
  ((ts.filter fun t => submittedIn log t.id = some d).map Transfer.value).sum

/-- The transfers that were submitted and not paid back. -/
def outstanding (log : List Deed) (s : Bridge) : List Transfer :=
  s.pool.walk .all ++ removedTransfers log

variable {log : List Deed} {d : Denom} {t : Transfer}

theorem valueIn_append (log : List Deed) (d : Denom) (ts us : List Transfer) :
    valueIn log d (ts ++ us) = valueIn log d ts + valueIn log d us := by
  rw [valueIn, List.filter_append, List.map_append, List.sum_append]
  rfl

theorem valueIn_perm (log : List Deed) (d : Denom) {ts us : List Transfer} (h : ts.Perm us) :
    valueIn log d ts = valueIn log d us :=
  ((h.filter _).map Transfer.value).sum_nat

theorem valueIn_cons_of_eq (h : submittedIn log t.id = some d) (ts : List Transfer) :
    valueIn log d (t :: ts) = t.value + valueIn log d ts := by
  rw [valueIn, List.filter_cons_of_pos (by simpa using h), List.map_cons, List.sum_cons]
  rfl

theorem valueIn_cons_of_ne (h : submittedIn log t.id ≠ some d) (ts : List Transfer) :
    valueIn log d (t :: ts) = valueIn log d ts := by
  rw [valueIn, List.filter_cons_of_neg (by simpa using h)]
  rfl

theorem le_valueIn {ts : List Transfer} (ht : t ∈ ts) (h : submittedIn log t.id = some d) :
    t.value ≤ valueIn log d ts := by
  rw [valueIn_perm log d (List.perm_cons_erase ht), valueIn_cons_of_eq h]
  exact Nat.le_add_right _ _

theorem valueIn_congr {log' : List Deed} {ts : List Transfer}
    (h : ∀ t ∈ ts, submittedIn log' t.id = submittedIn log t.id) :
    valueIn log' d ts = valueIn log d ts := by
  unfold valueIn
  congr 2
  apply List.filter_congr
  intro t ht
  rw [h t ht]

theorem submittedIn_submitted_self (log : List Deed) (id : UInt64) (d : Denom) :
    submittedIn (.submitted id d :: log) id = some d := by
  simp [submittedIn, Deed.submittedAs]

theorem submittedIn_submitted_of_ne (log : List Deed) {id other : UInt64} (h : other ≠ id)
    (d : Denom) : submittedIn (.submitted id d :: log) other = submittedIn log other := by
  simp [submittedIn, Deed.submittedAs, h.symm]

theorem fundedIn_funded_self (log : List Deed) (account : AccountId) (coin : Coin) :
    fundedIn (.funded account coin :: log) coin.denom = coin.amount + fundedIn log coin.denom := by
  simp [fundedIn, Deed.fundedAmount]

theorem fundedIn_funded_of_ne (log : List Deed) (account : AccountId) {coin : Coin}
    (h : d ≠ coin.denom) : fundedIn (.funded account coin :: log) d = fundedIn log d := by
  simp [fundedIn, Deed.fundedAmount, h.symm]

/-- The book of a denomination agrees with the log, if the transfers are the outstanding ones. -/
structure Agrees (log : List Deed) (ts : List Transfer) (d : Denom) (b : Book) : Prop where
  balanced : b.Balanced
  accounts : b.Accounts d (valueIn log d ts) (fundedIn log d)

theorem Agrees.perm {ts us : List Transfer} {b : Book} (h : Agrees log ts d b)
    (hperm : ts.Perm us) : Agrees log us d b :=
  ⟨h.balanced, valueIn_perm log d hperm ▸ h.accounts⟩

end Bridge

end WithdrawalPool
