/-
Walks through the pool.  A walk visits contracts in descending order, and the transfers of each
contract from the highest fee down, the newest first among equal fees.
-/
import WithdrawalPool.Pool.Basic

namespace WithdrawalPool

universe u

/-- The part of the pool that a walk covers. -/
inductive Scope where
  | all
  | contract (contract : Address)
deriving DecidableEq

namespace Pool

/-- The transfers in scope, in the order in which a walk visits them. -/
def walk (p : Pool) : Scope → List Transfer
  | .all => p.groups.values.reverse.flatMap (·.toList.reverse)
  | .contract contract => (p.group contract).toList.reverse

/-- Folds along a list until a step is done. -/
def foldUntil {σ : Type u} (step : σ → Transfer → ForInStep σ) (state : σ) : List Transfer → σ
  | [] => state
  | t :: rest =>
    match step state t with
    | .done state => state
    | .yield state => foldUntil step state rest

/-- Shows the transfers in scope to a visitor, one after the other, until it is done. -/
def visit {σ : Type u} (p : Pool) (scope : Scope) (visitor : σ → Transfer → ForInStep σ)
    (state : σ) : σ :=
  foldUntil visitor state (p.walk scope)

/-- The first transfer with the id in a walk through the whole pool. -/
def getById (p : Pool) (id : UInt64) : Except PoolError Transfer :=
  match (p.walk .all).find? (·.id = id) with
  | some t => .ok t
  | none => .error (.unknownTransfer id)

end Pool

end WithdrawalPool
