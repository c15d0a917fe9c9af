/-
State transitions of the pool.  A transition runs in an environment that it cannot change, over a
state that it hands from call to call.  A failure undoes nothing: the state it leaves behind is
part of the answer, and whoever runs the transition decides whether to keep it.
-/
import WithdrawalPool.Destination
import WithdrawalPool.Event
import WithdrawalPool.ExecutionContext
import WithdrawalPool.IdCounter
import WithdrawalPool.Pool.Walk

namespace WithdrawalPool

/-- What a transition may read and not change. -/
structure Env where
  context : ExecutionContext
  config : Config
  checkDestination : String → Except String Unit

/-- What a transition may change: the pool, its counter, the keeper of the coins, the registry
and the log of events, the oldest event first. -/
structure State (L R : Type) where
  pool : Pool := ∅
  ids : IdCounter := {}
  ledger : L
  registry : R
  events : List Event := []
deriving DecidableEq

abbrev TransitionM (L R : Type) := ExceptT PoolError (StateM (State L R))

namespace TransitionM

variable {L R α : Type}

/-- A call to the keeper of the coins. -/
def onLedger (refused : CustodyError → PoolError) (call : ExceptT CustodyError (StateM L) α) :
    TransitionM L R α :=
  fun s =>
    match call.run s.ledger with
    | (.ok a, ledger) => (.ok a, { s with ledger := ledger })
    | (.error e, ledger) => (.error (refused e), { s with ledger := ledger })

/-- A call to the registry. -/
def onRegistry (call : ExceptT RegistryError (StateM R) α) : TransitionM L R α :=
  fun s =>
    match call.run s.registry with
    | (.ok a, registry) => (.ok a, { s with registry := registry })
    | (.error e, registry) => (.error (.registry e), { s with registry := registry })

/-- Fails unless the counter has an id to hand out. -/
def ensureIdAvailable : TransitionM L R Unit :=
  fun s =>
    match s.ids.successor with
    | .ok _ => (.ok (), s)
    | .error e => (.error e, s)

/-- Takes an id from the counter. -/
def takeId : TransitionM L R UInt64 :=
  fun s =>
    match s.ids.take with
    | .ok (id, ids) => (.ok id, { s with ids := ids })
    | .error e => (.error e, s)

/-- Adds a transfer to the pool. -/
def addTransfer (t : Transfer) : TransitionM L R Unit :=
  fun s =>
    match s.pool.insert t with
    | .ok pool => (.ok (), { s with pool := pool })
    | .error e => (.error e, s)

/-- Takes the transfer with the fee and the id out of the pool, where it should be. -/
def takeTransfer (fee : TokenAmount) (id : UInt64) : TransitionM L R Unit :=
  fun s =>
    match s.pool.remove fee id with
    | .ok (_, pool) => (.ok (), { s with pool := pool })
    | .error _ => (.error (.notInPool id), s)

/-- Appends an event to the log. -/
def emit (e : Event) : TransitionM L R Unit := modify fun s => { s with events := s.events ++ [e] }

end TransitionM

end WithdrawalPool
