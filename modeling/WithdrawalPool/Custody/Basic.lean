/-
What the pool asks of whoever keeps the coins.  Native assets are locked into the custody of the
pool and unlocked out of it.  Vouchers are burned once they are locked, and minted again before
they are unlocked.
-/
import WithdrawalPool.Coin

namespace WithdrawalPool

/-- The calls that a keeper of coins answers. -/
inductive CustodyCall where
  | lock
  | unlock
  | burn
  | mint
deriving DecidableEq, Repr

def CustodyCall.name : CustodyCall → String
  | .lock => "lock"
  | .unlock => "unlock"
  | .burn => "burn"
  | .mint => "mint"

/-- Why a keeper of coins refused a call. -/
inductive CustodyError where
  | insufficientFunds (account : String) (denom : Denom) (required available : Nat)
  | insufficientCustody (denom : Denom) (required available : Nat)
  | disabled (call : CustodyCall)
  | invalidCoin (cause : DenomError)
deriving DecidableEq, Repr

def CustodyError.message : CustodyError → String
  | .insufficientFunds account denom required available =>
    s!"Insufficient funds in {account}: need {required}{denom}, have {available}{denom}"
  | .insufficientCustody denom required available =>
    s!"Insufficient module custody: need {required}{denom}, have {available}{denom}"
  | .disabled call => s!"Ledger operation {call.name} is disabled"
  | .invalidCoin cause => s!"Invalid coin: {cause.message}"

/-- Keepers of coins with states in `L`.  A call may be refused, and may change the state of the
keeper whether or not it is. -/
class Custody (L : Type) where
  /-- Moves coins of the account into custody. -/
  lock (account : AccountId) (coin : Coin) : ExceptT CustodyError (StateM L) Unit
  /-- Moves coins out of custody to the account. -/
  unlock (account : AccountId) (coin : Coin) : ExceptT CustodyError (StateM L) Unit
  /-- Destroys coins held in custody. -/
  burn (coin : Coin) : ExceptT CustodyError (StateM L) Unit
  /-- Creates coins in custody. -/
  mint (coin : Coin) : ExceptT CustodyError (StateM L) Unit

end WithdrawalPool
