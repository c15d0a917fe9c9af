/-
The settings of the pool.
-/
import WithdrawalPool.Address

namespace WithdrawalPool

/-- The number of transfers that fee summaries count for one batch, unless another is set. -/
def Config.defaultMaxBatchElements : UInt64 := 100

structure Config where
  /-- The chain id of the remote network, carried in every event. -/
  bridgeChainId : UInt64 := 0
  /-- The bridge contract on the remote chain, once it is deployed. -/
  bridgeContract : Option Address := none
  /-- The number of transfers that fee summaries count for one batch. -/
  maxBatchElements : UInt64 := Config.defaultMaxBatchElements
  /-- Whether withdrawals to the zero address are refused. -/
  rejectZeroDestination : Bool := false
deriving DecidableEq

end WithdrawalPool
