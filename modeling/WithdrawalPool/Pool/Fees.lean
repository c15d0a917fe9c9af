/-
What the next batch of a contract would earn.  A walk meets the highest fees first, so the first
transfers of a contract are those that a batch of that many would hold.
-/
import WithdrawalPool.Config
import WithdrawalPool.Pool.Walk

namespace WithdrawalPool

/-- The fees of a batch that is not built yet. -/
structure FeeSummary where
  token : Address
  totalFees : Nat
  txCount : UInt64
deriving DecidableEq

namespace FeeSummary

def empty (token : Address) : FeeSummary := ⟨token, 0, 0⟩

/-- Counts one more transfer. -/
def add (s : FeeSummary) (t : Transfer) : FeeSummary :=
  { s with totalFees := s.totalFees + t.fee.amount, txCount := s.txCount + 1 }

/-- Counts one more transfer of a batch of `cap`, unless it is on another contract. -/
def addChecked (cap : UInt64) (s : FeeSummary) (t : Transfer) :
    ForInStep (Except AbortError FeeSummary) :=
  if t.fee.contract ≠ s.token then
    .done (.error (.feeContractMismatch s.token.text t.fee.contract.text t.id))
  else if (s.add t).txCount = cap then .done (.ok (s.add t))
  else .yield (.ok (s.add t))

end FeeSummary

namespace Pool

/-- The fees of the next batch of `contract`, at most `cap` transfers in it.  A transfer that is
filed under the contract while its fee names another means that the pool is corrupt. -/
def feeSummary (p : Pool) (contract : Address) (cap : UInt64) : Except AbortError FeeSummary :=
  if cap = 0 then .ok (.empty contract)
  else
    p.visit (.contract contract)
      (fun
        | .ok s, t => s.addChecked cap t
        | .error e, _ => .done (.error e))
      (.ok (.empty contract))

/-- Counts a transfer towards the batch of its contract, unless that is full. -/
def countFee (cap : UInt64) (fees : SortedMap Address FeeSummary) (t : Transfer) :
    SortedMap Address FeeSummary :=
  let s := (fees.find? t.contract).getD (.empty t.contract)
  fees.insert t.contract (if s.txCount < cap then s.add t else s)

/-- The fees of the next batch of every contract that occurs, ascending by contract, found in one
walk. -/
def feeSummaries (p : Pool) (cap : UInt64) : List FeeSummary :=
  if cap = 0 then []
  else SortedMap.values ((p.walk .all).foldl (countFee cap) ∅)

/-- The fees of the next batch of `contract`, at the size that is configured. -/
def configuredSummary (config : Config) (p : Pool) (contract : Address) :
    Except AbortError FeeSummary :=
  p.feeSummary contract config.maxBatchElements

/-- The fees of every contract's next batch, at the size that is configured. -/
def configuredSummaries (config : Config) (p : Pool) : List FeeSummary :=
  p.feeSummaries config.maxBatchElements

end Pool

end WithdrawalPool
