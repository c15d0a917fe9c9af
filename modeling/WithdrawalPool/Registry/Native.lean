/-
The registry of native denominations.  A pair of denomination and contract is written once:
withdrawals that are under way pay back through the contract they were made under, so neither
side may be pointed elsewhere.  Contracts outside the registry carry their vouchers.
-/
import WithdrawalPool.Registry.Basic
import WithdrawalPool.SortedMap.Lemmas

namespace WithdrawalPool

/-- The registered pairs, to be looked up from either side. -/
structure Registry where
  contracts : SortedMap Denom Address := ∅
  denoms : SortedMap Address Denom := ∅
deriving DecidableEq

namespace Registry

instance : EmptyCollection Registry := ⟨{}⟩

/-- Records the contract that was deployed for a native denomination. -/
def register (r : Registry) (d : Denom) (contract : Address) : Except RegistryError Registry := do
  d.check.mapError .lookup
  if d.IsVoucher then throw (.lookup (.invalid d))
  if let some taken := r.contracts.find? d then throw (.denomTaken d taken.text)
  if let some taken := r.denoms.find? contract then throw (.contractTaken contract.text taken)
  return { contracts := r.contracts.insert d contract, denoms := r.denoms.insert contract d }

/-- The registered denominations, ascending. -/
def nativeDenoms (r : Registry) : List Denom := r.contracts.keys

/-- What carries a denomination.  The voucher mark decides before the registered pairs do. -/
def contractOf (r : Registry) (d : Denom) : Except RegistryError (Origin × Address) :=
  if d.IsVoucher then
    match d.voucherContract with
    | .ok contract => .ok (.bridged, contract)
    | .error cause => .error (.lookup cause)
  else
    match r.contracts.find? d with
    | some contract => .ok (.native, contract)
    | none => .error (.unknownDenom d)

/-- What a contract carries: its registered denomination, or else its voucher. -/
def denomOf (r : Registry) (contract : Address) : Origin × Denom :=
  match r.denoms.find? contract with
  | some d => (.native, d)
  | none => (.bridged, Denom.voucher contract)

instance : Resolver Registry where
  resolveContract d := fun r => (r.contractOf d, r)
  resolveDenom contract := fun r => (.ok (r.denomOf contract), r)

end Registry

end WithdrawalPool
