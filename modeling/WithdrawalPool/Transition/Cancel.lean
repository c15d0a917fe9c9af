/-
Cancelling a withdrawal that is still pending.  The transfer leaves the pool first and its coins
go back second, so that a refund that is refused cannot be asked for twice.
-/
import WithdrawalPool.Transition.Basic

namespace WithdrawalPool

open TransitionM in
/-- Pays coins back out of custody.  Vouchers are minted again first. -/
def refund {L R : Type} [Custody L] (origin : Origin) (account : AccountId) (coin : Coin) :
    TransitionM L R Unit := do
  if origin = .bridged then
    onLedger .ledger (Custody.mint coin)
  onLedger .ledger (Custody.unlock account coin)

open TransitionM in
/-- Takes the transfer with the id out of the pool, for its sender only, and pays back the amount
and the fee.  A transfer that is not found was never there, is cancelled already, or is in a
batch. -/
def cancel {L R : Type} [Custody L] [Resolver R] (env : Env) (id : UInt64) (requester : AccountId) :
    TransitionM L R Unit := do
  if env.context.isZero ∨ id < 1 ∨ requester.isEmpty then
    throw (.invalidArgument .cancellation)
  let t ← MonadExcept.ofExcept ((← get).pool.getById id)
  if t.sender.isEmpty then throw (.senderMissing id)
  if t.sender ≠ requester then throw (.unauthorized requester.text id)
  unless t.Consistent do
    throw (.invalidArgument (.inconsistentTokens t.fee.contract.text t.token.contract.text))
  let (origin, denom) ← onRegistry (Resolver.resolveDenom t.token.contract)
  takeTransfer t.fee id
  if ((← get).pool.find? t.fee.contract ⟨t.fee.amount, id⟩).isSome then
    throw (.notFullyRemoved id)
  match t.token.add? t.fee with
  | none =>
    throw (.abort (.tokenContractMismatch t.token.contract.text t.fee.contract.text id))
  | some total =>
    refund origin requester ⟨denom, total.amount⟩
    emit (.cancelled ⟨env.config.bridgeContract, env.config.bridgeChainId, id⟩)

end WithdrawalPool
