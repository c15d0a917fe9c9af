/-
Pending withdrawals.
-/
import WithdrawalPool.Coin

namespace WithdrawalPool

/-- A withdrawal that waits to be put into a batch.  It is not changed while it waits. -/
structure Transfer where
  id : UInt64
  sender : AccountId
  destination : Address
  token : TokenAmount
  fee : TokenAmount
deriving DecidableEq

namespace Transfer

/-- The contract that the fee is paid in, under which the pool files the transfer. -/
def contract (t : Transfer) : Address := t.fee.contract

/-- The token and the fee are on one contract. -/
def Consistent (t : Transfer) : Prop := t.token.contract = t.fee.contract

instance (t : Transfer) : Decidable t.Consistent :=
  inferInstanceAs (Decidable (t.token.contract = t.fee.contract))

end Transfer

end WithdrawalPool
