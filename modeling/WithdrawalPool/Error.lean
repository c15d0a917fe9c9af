/-
Why an operation on the pool fails.  An abort is fatal: whoever runs the enclosing state
transition has to discard all of its effects.  Every other failure is an answer.
-/
import WithdrawalPool.Custody.Basic
import WithdrawalPool.Registry.Basic

namespace WithdrawalPool

/-- Faults that are never handled where they occur. -/
inductive AbortError where
  | burnAfterLock (denom : String) (amount : Nat) (cause : CustodyError)
  | feeContractMismatch (expected found : String) (id : UInt64)
  | tokenContractMismatch (token fee : String) (id : UInt64)
deriving DecidableEq, Repr

def AbortError.message : AbortError → String
  | .burnAfterLock denom amount cause =>
    s!"Burn of {amount}{denom} failed after lock succeeded: {cause.message}"
  | .feeContractMismatch expected found id =>
    s!"Unexpected fee contract {found} on transfer {id} while aggregating fees for {expected}"
  | .tokenContractMismatch token fee id =>
    s!"Transfer {id} mixes token contract {token} with fee contract {fee}"

/-- What is wrong with the arguments of a call. -/
inductive ArgumentError where
  | uninitializedContext
  | emptySender
  | destination (reason : String)
  | amount (cause : DenomError)
  | fee (cause : DenomError)
  | zeroAmount
  | denomsDiffer (fee amount : String)
  | cancellation
  | inconsistentTokens (fee token : String)
  | config (reason : String)
  | other (reason : String)
deriving DecidableEq, Repr

def ArgumentError.message : ArgumentError → String
  | .uninitializedContext => "execution context is not initialized"
  | .emptySender => "sender is empty"
  | .destination reason => s!"destination: {reason}"
  | .amount cause => s!"amount: {cause.message}"
  | .fee cause => s!"fee: {cause.message}"
  | .zeroAmount => "amount must be positive"
  | .denomsDiffer feeDenom amountDenom =>
    s!"fee denomination {feeDenom} does not match amount denomination {amountDenom}"
  | .cancellation => "arguments"
  | .inconsistentTokens feeContract tokenContract =>
    s!"inconsistent tokens to cancel: fee {feeContract} token {tokenContract}"
  | .config reason => s!"config: {reason}"
  | .other reason => reason

/-- Why an operation on the pool fails. -/
inductive PoolError where
  | invalidArgument (cause : ArgumentError)
  | unauthorized (requester : String) (id : UInt64)
  | notInPool (id : UInt64)
  | notFound (what : String)
  | duplicate (what : String)
  | corrupted (what : String)
  | ledger (cause : CustodyError)
  | registry (cause : RegistryError)
  | abort (cause : AbortError)
deriving DecidableEq, Repr

namespace PoolError

def message : PoolError → String
  | .invalidArgument cause => s!"Invalid argument: {cause.message}"
  | .unauthorized requester id => s!"Sender {requester} did not send transfer {id}"
  | .notInPool id => s!"Transfer {id} is not in the unbatched pool, it must be in a batch"
  | .notFound what => s!"Pool transaction not found: {what}"
  | .duplicate what => s!"Duplicate pool entry: {what}"
  | .corrupted what => s!"Pool state corrupted: {what}"
  | .ledger cause => s!"Ledger error: {cause.message}"
  | .registry cause => s!"Token registry error: {cause.message}"
  | .abort cause => s!"Transition aborted: {cause.message}"

/-- A short name for the kind of failure, which stays the same when messages change. -/
def code : PoolError → String
  | .invalidArgument _ => "invalid_argument"
  | .unauthorized .. => "unauthorized"
  | .notInPool _ => "not_in_pool"
  | .notFound _ => "not_found"
  | .duplicate _ => "duplicate"
  | .corrupted _ => "corrupted"
  | .ledger _ => "ledger"
  | .registry _ => "registry"
  | .abort _ => "abort"

/-- Whether the enclosing transition has to be undone. -/
def isFatal : PoolError → Bool
  | .abort _ => true
  | _ => false

/-- No transfer has the id. -/
def unknownTransfer (id : UInt64) : PoolError := .notFound s!"pool transaction {id}"

/-- A transfer with the same contract, fee and id is pending. -/
def alreadyPending (id : UInt64) : PoolError := .duplicate s!"transfer {id} already in pool"

/-- A transfer is still found after it was taken out. -/
def notFullyRemoved (id : UInt64) : PoolError :=
  .duplicate s!"transfer {id} was not fully removed from the pool, a duplicate must exist"

/-- A pending transfer names nobody to pay back. -/
def senderMissing (id : UInt64) : PoolError :=
  .corrupted s!"transfer {id} has no sender in store"

/-- No id is left to hand out. -/
def idsExhausted : PoolError := .corrupted "transfer id space exhausted"

end PoolError

end WithdrawalPool
