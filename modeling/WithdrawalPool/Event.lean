/-
What indexers and relayers are told about the pool.
-/
import WithdrawalPool.Address

namespace WithdrawalPool

/-- A withdrawal entered the pool. -/
structure ReceiptNotice where
  /-- The bridge contract on the remote chain, if it is deployed. -/
  contract : Option Address
  bridgeChainId : UInt64
  outgoingTxId : UInt64
  nonce : UInt64
deriving DecidableEq

/-- A withdrawal was cancelled. -/
structure CancellationNotice where
  /-- The bridge contract on the remote chain, if it is deployed. -/
  contract : Option Address
  bridgeChainId : UInt64
  outgoingTxId : UInt64
deriving DecidableEq

inductive Event where
  | received (notice : ReceiptNotice)
  | cancelled (notice : CancellationNotice)
deriving DecidableEq

end WithdrawalPool
