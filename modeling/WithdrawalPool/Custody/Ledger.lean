/-
A bank in memory.  Each denomination has a book of its own, with the balances of the accounts,
the coins in custody and the supply, and no operation touches more than one book.
-/
import WithdrawalPool.Custody.Basic
import WithdrawalPool.Tally

namespace WithdrawalPool

/-- All that is known of one denomination. -/
structure Book where
  balances : Tally AccountId := ∅
  custody : Nat := 0
  supply : Nat := 0
deriving DecidableEq

namespace Book

def balance (b : Book) (account : AccountId) : Nat := b.balances.amount account

/-- Issues coins to an account. -/
def fund (b : Book) (account : AccountId) (n : Nat) : Book :=
  { b with balances := b.balances.credit account n, supply := b.supply + n }

/-- Moves coins of an account into custody, or reports the balance that did not suffice. -/
def lock (b : Book) (account : AccountId) (n : Nat) : Except Nat Book :=
  match b.balances.debit account n with
  | .ok balances => .ok { b with balances := balances, custody := b.custody + n }
  | .error available => .error available

/-- Moves coins out of custody to an account, or reports the custody that did not suffice. -/
def unlock (b : Book) (account : AccountId) (n : Nat) : Except Nat Book :=
  if n ≤ b.custody then
    .ok { b with balances := b.balances.credit account n, custody := b.custody - n }
  else .error b.custody

/-- Destroys coins in custody, or reports the custody that did not suffice.  The supply follows
only where it covers the amount, which it does in every book whose coins all came from `fund` and
`mint`. -/
def burn (b : Book) (n : Nat) : Except Nat Book :=
  if n ≤ b.custody then
    .ok { b with
      custody := b.custody - n
      supply := if n ≤ b.supply then b.supply - n else b.supply }
  else .error b.custody

/-- Creates coins in custody. -/
def mint (b : Book) (n : Nat) : Book :=
  { b with custody := b.custody + n, supply := b.supply + n }

/-- Every coin is in custody or in an account. -/
def Balanced (b : Book) : Prop := b.supply = b.custody + b.balances.total

end Book

/-- Whether the operations that change a supply may be used. -/
structure SupplySwitches where
  burn : Bool := true
  mint : Bool := true
deriving DecidableEq, Repr

/-- A bank with a book for each denomination. -/
structure Ledger where
  switches : SupplySwitches := {}
  books : SortedMap Denom Book := ∅
deriving DecidableEq

namespace Ledger

instance : EmptyCollection Ledger := ⟨{}⟩

def book (l : Ledger) (d : Denom) : Book := (l.books.find? d).getD {}

def setBook (l : Ledger) (d : Denom) (b : Book) : Ledger := { l with books := l.books.insert d b }

def balance (l : Ledger) (account : AccountId) (d : Denom) : Nat := (l.book d).balance account

def custody (l : Ledger) (d : Denom) : Nat := (l.book d).custody

def supply (l : Ledger) (d : Denom) : Nat := (l.book d).supply

/-- Issues coins to an account, of any denomination whatever. -/
def fund (l : Ledger) (account : AccountId) (coin : Coin) : Ledger :=
  l.setBook coin.denom ((l.book coin.denom).fund account coin.amount)

def checkCoin (coin : Coin) : Except CustodyError Unit :=
  coin.denom.check.mapError .invalidCoin

def lock (l : Ledger) (account : AccountId) (coin : Coin) : Except CustodyError Ledger := do
  checkCoin coin
  match (l.book coin.denom).lock account coin.amount with
  | .ok b => return l.setBook coin.denom b
  | .error available =>
    throw (.insufficientFunds account.text coin.denom coin.amount available)

def unlock (l : Ledger) (account : AccountId) (coin : Coin) : Except CustodyError Ledger := do
  checkCoin coin
  match (l.book coin.denom).unlock account coin.amount with
  | .ok b => return l.setBook coin.denom b
  | .error available => throw (.insufficientCustody coin.denom coin.amount available)

def burn (l : Ledger) (coin : Coin) : Except CustodyError Ledger := do
  unless l.switches.burn do throw (.disabled .burn)
  checkCoin coin
  match (l.book coin.denom).burn coin.amount with
  | .ok b => return l.setBook coin.denom b
  | .error available => throw (.insufficientCustody coin.denom coin.amount available)

def mint (l : Ledger) (coin : Coin) : Except CustodyError Ledger := do
  unless l.switches.mint do throw (.disabled .mint)
  checkCoin coin
  return l.setBook coin.denom ((l.book coin.denom).mint coin.amount)

/-- Makes a change that may be refused, and keeps the state where it is. -/
def attempt (change : Ledger → Except CustodyError Ledger) :
    ExceptT CustodyError (StateM Ledger) Unit :=
  fun l =>
    match change l with
    | .ok l' => (.ok (), l')
    | .error e => (.error e, l)

instance : Custody Ledger where
  lock account coin := attempt (·.lock account coin)
  unlock account coin := attempt (·.unlock account coin)
  burn coin := attempt (·.burn coin)
  mint coin := attempt (·.mint coin)

@[simp] theorem book_setBook_self (l : Ledger) (d : Denom) (b : Book) :
    (l.setBook d b).book d = b := by
  simp [book, setBook]

theorem book_setBook_of_ne (l : Ledger) {d other : Denom} (h : other ≠ d) (b : Book) :
    (l.setBook d b).book other = l.book other := by
  simp [book, setBook, SortedMap.find?_insert_of_ne l.books h]

end Ledger

end WithdrawalPool
