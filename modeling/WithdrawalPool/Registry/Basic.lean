/-
Which contract of the remote chain carries a local denomination.
-/
import WithdrawalPool.Denom

namespace WithdrawalPool

/-- Where an asset was issued: on this chain, or on the remote one with a voucher here. -/
inductive Origin where
  | native
  | bridged
deriving DecidableEq, Repr

def Origin.name : Origin → String
  | .native => "native"
  | .bridged => "bridged"

/-- Why a denomination could not be resolved or registered. -/
inductive RegistryError where
  | unknownDenom (denom : String)
  | denomTaken (denom contract : String)
  | contractTaken (contract denom : String)
  | lookup (cause : DenomError)
deriving DecidableEq, Repr

def RegistryError.message : RegistryError → String
  | .unknownDenom denom => s!"No bridge contract registered for denomination {denom}"
  | .denomTaken denom contract =>
    s!"Denomination {denom} is already mapped to contract {contract}"
  | .contractTaken contract denom =>
    s!"Contract {contract} is already mapped to denomination {denom}"
  | .lookup cause => s!"Denomination lookup failed: {cause.message}"

/-- Registries with states in `R`, which answer what carries a denomination and what a contract
carries. -/
class Resolver (R : Type) where
  resolveContract (denom : Denom) : ExceptT RegistryError (StateM R) (Origin × Address)
  resolveDenom (contract : Address) : ExceptT RegistryError (StateM R) (Origin × Denom)

end WithdrawalPool
