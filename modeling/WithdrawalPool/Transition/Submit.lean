/-
Submitting a withdrawal.  The arguments are judged first and the coins move next; the transfer is
recorded last.  Coins that were locked and could not be burned abort the transition.
-/
import WithdrawalPool.Transition.Basic

namespace WithdrawalPool

/-- A request to send `amount` to `destination`, with `fee` for whoever relays it. -/
structure Withdrawal where
  sender : AccountId
  destination : String
  amount : Coin
  fee : Coin
deriving DecidableEq

namespace Withdrawal

/-- Judges the arguments, and gives the destination and the sum of the amount and the fee. -/
def check (env : Env) (w : Withdrawal) : Except ArgumentError (Address × Coin) := do
  if env.context.isZero then throw .uninitializedContext
  if w.sender.isEmpty then throw .emptySender
  (env.checkDestination w.destination).mapError .destination
  let destination ← (Address.ofText w.destination).mapError fun e => .destination e.message
  w.amount.denom.check.mapError .amount
  w.fee.denom.check.mapError .fee
  if w.amount.amount = 0 then throw .zeroAmount
  match w.amount.add? w.fee with
  | some total => return (destination, total)
  | none => throw (.denomsDiffer w.fee.denom w.amount.denom)

/-- The transfer that records the withdrawal. -/
def toTransfer (w : Withdrawal) (id : UInt64) (destination contract : Address) : Transfer where
  id := id
  sender := w.sender
  destination := destination
  token := ⟨contract, w.amount.amount⟩
  fee := ⟨contract, w.fee.amount⟩

end Withdrawal

open TransitionM in
/-- Adds a withdrawal to the pool and returns its id.  That an id is available is known before
any coin moves. -/
def submit {L R : Type} [Custody L] [Resolver R] (env : Env) (w : Withdrawal) :
    TransitionM L R UInt64 := do
  let (destination, total) ← MonadExcept.ofExcept ((w.check env).mapError .invalidArgument)
  let (origin, contract) ← onRegistry (Resolver.resolveContract total.denom)
  ensureIdAvailable
  onLedger .ledger (Custody.lock w.sender total)
  if origin = .bridged then
    onLedger (fun e => .abort (.burnAfterLock total.denom total.amount e)) (Custody.burn total)
  let id ← takeId
  addTransfer (w.toTransfer id destination contract)
  emit (.received ⟨env.config.bridgeContract, env.config.bridgeChainId, id, id⟩)
  return id

end WithdrawalPool
