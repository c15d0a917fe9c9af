/-
Scripted histories of the pool.  A step calls one operation, on the pool, on the bank or on the
registry, and the script goes on after failures, with whatever they left behind.
-/
import WithdrawalPool.Custody.Ledger
import WithdrawalPool.Faults
import WithdrawalPool.Pool.Fees
import WithdrawalPool.Registry.Native
import WithdrawalPool.Transition.Cancel
import WithdrawalPool.Transition.Submit

namespace WithdrawalPool

namespace Scenario

/-- Who judges destinations: the policy of the configuration, or somebody of one opinion. -/
inductive Judge where
  | configured
  | acceptsAll
  | rejectsAll
deriving DecidableEq, Repr

def Judge.check (config : Config) : Judge → String → Except String Unit
  | .configured => (DestinationPolicy.ofConfig config).check
  | .acceptsAll => fun _ => .ok ()
  | .rejectsAll => fun _ => .error "rejected"

abbrev Machine := State (WithFaults CustodyCall Ledger) (WithFaults ResolverCall Registry)

end Scenario

open Scenario in
/-- A history between two steps. -/
structure Scenario where
  context : ExecutionContext := ⟨1⟩
  config : Config := {}
  judge : Judge := .configured
  machine : Machine := { ledger := ⟨∅, fun _ => 0⟩, registry := ⟨∅, fun _ => 0⟩ }

namespace Scenario

inductive Step where
  | height (height : UInt64)
  | config (config : Config)
  | judge (judge : Judge)
  | custodyFault (call : CustodyCall)
  | resolverFault (call : ResolverCall)
  | switches (switches : SupplySwitches)
  | fund (account : AccountId) (coin : Coin)
  | lock (account : AccountId) (coin : Coin)
  | unlock (account : AccountId) (coin : Coin)
  | burn (coin : Coin)
  | mint (coin : Coin)
  | register (denom : Denom) (contract : Address)
  | contractOf (denom : Denom)
  | denomOf (contract : Address)
  | submit (withdrawal : Withdrawal)
  | cancel (id : UInt64) (requester : AccountId)
  | restart (next : UInt64)
  | takeId
  | insert (transfers : List Transfer)
  | place (contract : Address) (transfer : Transfer)
  | remove (fee : TokenAmount) (id : UInt64)
  | get (contract : Address) (key : FeeKey)
  | getById (id : UInt64)
  | walk (scope : Scope)
  | visit (scope : Scope) (stopAfter : Nat)
  | feeSummary (contract : Address) (cap : UInt64)
  | feeSummaries (cap : UInt64)
  | configuredSummary (contract : Address)
  | configuredSummaries
  | observe
deriving DecidableEq

inductive Outcome where
  | done
  | id (id : UInt64)
  | ids (ids : List UInt64)
  | transfer (transfer : Transfer)
  | transfers (transfers : List Transfer)
  | fees (summary : FeeSummary)
  | allFees (summaries : List FeeSummary)
  | contract (origin : Origin) (contract : Address)
  | denom (origin : Origin) (denom : Denom)
  | poolError (error : PoolError)
  | custodyError (error : CustodyError)
  | registryError (error : RegistryError)
  | abortError (error : AbortError)
deriving DecidableEq

/-- Adds transfers to a pool until one is refused. -/
def insertAll (p : Pool) : List Transfer → Outcome × Pool
  | [] => (.done, p)
  | t :: rest =>
    match p.insert t with
    | .ok p => insertAll p rest
    | .error e => (.poolError e, p)

/-- The ids that a visitor sees who is done after `stopAfter` of them, or never if that is zero. -/
def visitIds (p : Pool) (scope : Scope) (stopAfter : Nat) : List UInt64 :=
  p.visit scope
    (fun seen t =>
      let seen := seen ++ [t.id]
      if seen.length = stopAfter then .done seen else .yield seen)
    []

variable (s : Scenario)

def ledger : Ledger := s.machine.ledger.inner

def registry : Registry := s.machine.registry.inner

def env : Env := ⟨s.context, s.config, s.judge.check s.config⟩

def setPool (p : Pool) : Scenario := { s with machine.pool := p }

def setLedger (l : Ledger) : Scenario := { s with machine.ledger.inner := l }

/-- Makes a transition and tells how it ended. -/
def transition {α : Type} (outcome : α → Outcome)
    (t : TransitionM (WithFaults CustodyCall Ledger) (WithFaults ResolverCall Registry) α) :
    Outcome × Scenario :=
  match t.run s.machine with
  | (.ok a, machine) => (outcome a, { s with machine := machine })
  | (.error e, machine) => (.poolError e, { s with machine := machine })

/-- Makes a call straight to the bank. -/
def onBank (call : Ledger → Except CustodyError Ledger) : Outcome × Scenario :=
  match call s.ledger with
  | .ok l => (.done, s.setLedger l)
  | .error e => (.custodyError e, s)

def runStep : Step → Outcome × Scenario
  | .height height => (.done, { s with context := ⟨height⟩ })
  | .config config => (.done, { s with config := config })
  | .judge judge => (.done, { s with judge := judge })
  | .custodyFault call => (.done, { s with machine.ledger := s.machine.ledger.addFault call })
  | .resolverFault call =>
    (.done, { s with machine.registry := s.machine.registry.addFault call })
  | .switches switches => (.done, s.setLedger { s.ledger with switches := switches })
  | .fund account coin => (.done, s.setLedger (s.ledger.fund account coin))
  | .lock account coin => s.onBank (·.lock account coin)
  | .unlock account coin => s.onBank (·.unlock account coin)
  | .burn coin => s.onBank (·.burn coin)
  | .mint coin => s.onBank (·.mint coin)
  | .register denom contract =>
    match s.registry.register denom contract with
    | .ok r => (.done, { s with machine.registry.inner := r })
    | .error e => (.registryError e, s)
  | .contractOf denom =>
    match s.registry.contractOf denom with
    | .ok (origin, contract) => (.contract origin contract, s)
    | .error e => (.registryError e, s)
  | .denomOf contract =>
    let (origin, denom) := s.registry.denomOf contract
    (.denom origin denom, s)
  | .submit withdrawal => s.transition .id (WithdrawalPool.submit s.env withdrawal)
  | .cancel id requester =>
    s.transition (fun _ => .done) (WithdrawalPool.cancel s.env id requester)
  | .restart next =>
    (.done, { s with machine.pool := ∅, machine.ids := IdCounter.startingAt next })
  | .takeId => s.transition .id TransitionM.takeId
  | .insert transfers =>
    let (outcome, pool) := insertAll s.machine.pool transfers
    (outcome, s.setPool pool)
  | .place contract transfer => (.done, s.setPool (s.machine.pool.place contract transfer))
  | .remove fee id =>
    match s.machine.pool.remove fee id with
    | .ok (transfer, pool) => (.transfer transfer, s.setPool pool)
    | .error e => (.poolError e, s)
  | .get contract key =>
    match s.machine.pool.get contract key with
    | .ok transfer => (.transfer transfer, s)
    | .error e => (.poolError e, s)
  | .getById id =>
    match s.machine.pool.getById id with
    | .ok transfer => (.transfer transfer, s)
    | .error e => (.poolError e, s)
  | .walk scope => (.transfers (s.machine.pool.walk scope), s)
  | .visit scope stopAfter => (.ids (visitIds s.machine.pool scope stopAfter), s)
  | .feeSummary contract cap =>
    match s.machine.pool.feeSummary contract cap with
    | .ok summary => (.fees summary, s)
    | .error e => (.abortError e, s)
  | .feeSummaries cap => (.allFees (s.machine.pool.feeSummaries cap), s)
  | .configuredSummary contract =>
    match s.machine.pool.configuredSummary s.config contract with
    | .ok summary => (.fees summary, s)
    | .error e => (.abortError e, s)
  | .configuredSummaries => (.allFees (s.machine.pool.configuredSummaries s.config), s)
  | .observe => (.done, s)

/-- The events that a step added to the log. -/
def eventsSince (before after : Scenario) : List Event :=
  after.machine.events.drop before.machine.events.length

end Scenario

end WithdrawalPool
