/-
Collaborators that fail on demand.  A fault that is due makes one call fail, once, before it
reaches the collaborator.
-/
import WithdrawalPool.Custody.Basic
import WithdrawalPool.Registry.Basic

namespace WithdrawalPool

/-- The calls that a registry answers. -/
inductive ResolverCall where
  | resolveContract
  | resolveDenom
deriving DecidableEq, Repr

/-- A collaborator and the number of faults that are due on each of its calls. -/
structure WithFaults (ι α : Type) where
  inner : α
  due : ι → Nat := fun _ => 0

namespace WithFaults

variable {ι α ε β : Type} [DecidableEq ι]

/-- Makes one more call fail. -/
def addFault (call : ι) (s : WithFaults ι α) : WithFaults ι α :=
  { s with due := fun c => if c = call then s.due c + 1 else s.due c }

/-- Fails if a fault is due on the call, and makes the call if none is. -/
def guard (call : ι) (fault : ε) (action : ExceptT ε (StateM α) β) :
    ExceptT ε (StateM (WithFaults ι α)) β :=
  fun s =>
    if s.due call = 0 then
      let (result, inner) := action.run s.inner
      (result, { s with inner := inner })
    else
      (.error fault, { s with due := fun c => if c = call then s.due c - 1 else s.due c })

instance {L : Type} [Custody L] : Custody (WithFaults CustodyCall L) where
  lock account coin := guard .lock (.disabled .lock) (Custody.lock account coin)
  unlock account coin := guard .unlock (.disabled .unlock) (Custody.unlock account coin)
  burn coin := guard .burn (.disabled .burn) (Custody.burn coin)
  mint coin := guard .mint (.disabled .mint) (Custody.mint coin)

instance {R : Type} [Resolver R] : Resolver (WithFaults ResolverCall R) where
  resolveContract denom :=
    guard .resolveContract (.unknownDenom denom) (Resolver.resolveContract denom)
  resolveDenom contract :=
    guard .resolveDenom (.unknownDenom contract.text) (Resolver.resolveDenom contract)

end WithFaults

end WithdrawalPool
