/-
Where in the history of the chain an operation runs.
-/
namespace WithdrawalPool

structure ExecutionContext where
  blockHeight : UInt64 := 0
deriving DecidableEq, Repr

/-- Height zero stands for a context that nobody has set up. -/
def ExecutionContext.isZero (c : ExecutionContext) : Bool := c.blockHeight == 0

end WithdrawalPool
