/-
What a submission does, exit by exit.  Coins move only once the arguments are accepted, the
denomination is resolved and an id is left, and the transfer is recorded only once they moved.
-/
import WithdrawalPool.Custody.Ledger
import WithdrawalPool.Proofs.Running
import WithdrawalPool.Registry.Native
import WithdrawalPool.Transition.Submit

namespace WithdrawalPool

variable {L R : Type} [Custody L] [Resolver R]

namespace Withdrawal

/-- What the sender pays: the amount and the fee together. -/
def total (w : Withdrawal) : Coin := ⟨w.amount.denom, w.amount.amount + w.fee.amount⟩

theorem check_eq_ok_iff {env : Env} {w : Withdrawal} {destination : Address} {total : Coin} :
    w.check env = .ok (destination, total) ↔
      env.context.isZero = false ∧ w.sender.isEmpty = false ∧
        env.checkDestination w.destination = .ok () ∧ destination.text = w.destination ∧
        w.amount.denom.Valid ∧ w.fee.denom.Valid ∧ 0 < w.amount.amount ∧
        w.amount.denom = w.fee.denom ∧ total = w.total := by
  unfold check
  by_cases hcontext : env.context.isZero = true
  · simp [hcontext, bind, Except.bind, throw, throwThe, MonadExceptOf.throw]
  by_cases hsender : w.sender.isEmpty = true
  · simp [hsender, hcontext, bind, Except.bind, throw, throwThe, MonadExceptOf.throw]
  by_cases hzero : w.amount.amount = 0
  · simp [hzero, hsender, hcontext, Except.bind_eq_ok_iff, throw, throwThe,
      MonadExceptOf.throw]
  by_cases hdenom : w.amount.denom = w.fee.denom
  · simp only [hcontext, hsender, hzero, hdenom, Bool.false_eq_true, ↓reduceIte, true_and,
      Coin.add?, bind_pure_comp, Except.bind_eq_ok_iff, Except.map_eq_ok_iff,
      Except.mapError_eq_ok_iff, Except.exists_eq_ok_unit, Address.ofText_eq_ok_iff,
      Denom.check_eq_ok_iff, Prod.mk.injEq, exists_and_right, and_self_left,
      and_congr_right_iff, Withdrawal.total]
    intro _
    constructor
    · rintro ⟨a, htext, hvalid, rfl, rfl⟩
      exact ⟨htext, hvalid, Nat.pos_of_ne_zero hzero, rfl⟩
    · rintro ⟨htext, hvalid, _, rfl⟩
      exact ⟨destination, htext, hvalid, rfl, rfl⟩
  · simp [hdenom, hzero, hsender, hcontext, Except.bind_eq_ok_iff, Coin.add?, throw, throwThe,
      MonadExceptOf.throw]

end Withdrawal

/-- The keeper of the coins takes the coin from the account, and burns it if it is a voucher. -/
inductive Collects (account : AccountId) (coin : Coin) (before : L) : Origin → L → Prop
  | native {after : L} (hlock : (Custody.lock account coin).run before = (.ok (), after)) :
      Collects account coin before .native after
  | bridged {locked after : L}
      (hlock : (Custody.lock account coin).run before = (.ok (), locked))
      (hburn : (Custody.burn coin).run locked = (.ok (), after)) :
      Collects account coin before .bridged after

/-- Every check that comes before coins move is passed: the arguments are accepted, the
denomination is resolved and an id is left. -/
structure Admits (env : Env) (w : Withdrawal) (s : State L R) (destination : Address)
    (origin : Origin) (contract : Address) (registry : R) (next : UInt64) : Prop where
  accepted : w.check env = .ok (destination, w.total)
  resolved : (Resolver.resolveContract w.total.denom).run s.registry =
    (.ok (origin, contract), registry)
  available : s.ids.successor = .ok next

/-- The ways in which a submission ends, each with the state that it leaves behind. -/
inductive SubmitEffect (env : Env) (w : Withdrawal) (s : State L R) :
    Except PoolError UInt64 → State L R → Prop
  | refused {e : ArgumentError} (hcheck : w.check env = .error e) :
      SubmitEffect env w s (.error (.invalidArgument e)) s
  | unresolved {destination : Address} {e : RegistryError} {registry : R}
      (haccepted : w.check env = .ok (destination, w.total))
      (hresolve : (Resolver.resolveContract w.total.denom).run s.registry = (.error e, registry)) :
      SubmitEffect env w s (.error (.registry e)) { s with registry := registry }
  | exhausted {destination contract : Address} {origin : Origin} {registry : R} {e : PoolError}
      (haccepted : w.check env = .ok (destination, w.total))
      (hresolve : (Resolver.resolveContract w.total.denom).run s.registry =
        (.ok (origin, contract), registry))
      (hids : s.ids.successor = .error e) :
      SubmitEffect env w s (.error e) { s with registry := registry }
  | notLocked {destination contract : Address} {origin : Origin} {registry : R} {next : UInt64}
      {e : CustodyError} {ledger : L}
      (hadmits : Admits env w s destination origin contract registry next)
      (hlock : (Custody.lock w.sender w.total).run s.ledger = (.error e, ledger)) :
      SubmitEffect env w s (.error (.ledger e)) { s with registry := registry, ledger := ledger }
  | notBurned {destination contract : Address} {registry : R} {next : UInt64}
      {e : CustodyError} {locked ledger : L}
      (hadmits : Admits env w s destination .bridged contract registry next)
      (hlock : (Custody.lock w.sender w.total).run s.ledger = (.ok (), locked))
      (hburn : (Custody.burn w.total).run locked = (.error e, ledger)) :
      SubmitEffect env w s (.error (.abort (.burnAfterLock w.total.denom w.total.amount e)))
        { s with registry := registry, ledger := ledger }
  | duplicate {destination contract : Address} {origin : Origin} {registry : R} {next : UInt64}
      {ledger : L} {e : PoolError}
      (hadmits : Admits env w s destination origin contract registry next)
      (hcollects : Collects w.sender w.total s.ledger origin ledger)
      (hinsert : s.pool.insert (w.toTransfer s.ids.peek destination contract) = .error e) :
      SubmitEffect env w s (.error e)
        { s with registry := registry, ledger := ledger, ids := ⟨some next⟩ }
  | recorded {destination contract : Address} {origin : Origin} {registry : R} {next : UInt64}
      {ledger : L} {pool : Pool}
      (hadmits : Admits env w s destination origin contract registry next)
      (hcollects : Collects w.sender w.total s.ledger origin ledger)
      (hinsert : s.pool.insert (w.toTransfer s.ids.peek destination contract) = .ok pool) :
      SubmitEffect env w s (.ok s.ids.peek)
        { pool := pool
          ids := ⟨some next⟩
          ledger := ledger
          registry := registry
          events := s.events ++ [.received
            ⟨env.config.bridgeContract, env.config.bridgeChainId, s.ids.peek, s.ids.peek⟩] }

open TransitionM in
/-- Once the coins are collected, the id is taken and the transfer goes into the pool. -/
theorem runFrom_submit_of_collects {env : Env} {w : Withdrawal} {s : State L R}
    {destination contract : Address} {origin : Origin} {registry : R} {next : UInt64} {ledger : L}
    (hadmits : Admits env w s destination origin contract registry next)
    (hcollects : Collects w.sender w.total s.ledger origin ledger) :
    (submit env w).runFrom s =
      match s.pool.insert (w.toTransfer s.ids.peek destination contract) with
      | .ok pool =>
        (.ok s.ids.peek,
          { pool := pool
            ids := ⟨some next⟩
            ledger := ledger
            registry := registry
            events := s.events ++ [.received
              ⟨env.config.bridgeContract, env.config.bridgeChainId, s.ids.peek, s.ids.peek⟩] })
      | .error e =>
        (.error e, { s with registry := registry, ledger := ledger, ids := ⟨some next⟩ }) := by
  have htake (l : L) : takeId.runFrom { s with registry := registry, ledger := l } =
      (.ok s.ids.peek, { s with registry := registry, ledger := l, ids := ⟨some next⟩ }) :=
    runFrom_takeId_of_successor (s := { s with registry := registry, ledger := l })
      hadmits.available
  cases hcollects with
  | native hlock =>
      simp only [submit, runFrom_bind, runFrom_ofExcept, hadmits.accepted, Except.mapError_ok,
        runFrom_onRegistry, hadmits.resolved, runFrom_ensureIdAvailable, hadmits.available,
        runFrom_onLedger, hlock, reduceCtorEq, ↓reduceIte, htake, runFrom_addTransfer]
      cases s.pool.insert (w.toTransfer s.ids.peek destination contract) <;> simp
  | bridged hlock hburn =>
      simp only [submit, runFrom_bind, runFrom_ofExcept, hadmits.accepted, Except.mapError_ok,
        runFrom_onRegistry, hadmits.resolved, runFrom_ensureIdAvailable, hadmits.available,
        runFrom_onLedger, hlock, hburn, ↓reduceIte, htake, runFrom_addTransfer]
      cases s.pool.insert (w.toTransfer s.ids.peek destination contract) <;> simp

open TransitionM in
theorem runFrom_submit_of_not_burned {env : Env} {w : Withdrawal} {s : State L R}
    {destination contract : Address} {registry : R} {next : UInt64} {e : CustodyError}
    {locked ledger : L} (hadmits : Admits env w s destination .bridged contract registry next)
    (hlock : (Custody.lock w.sender w.total).run s.ledger = (.ok (), locked))
    (hburn : (Custody.burn w.total).run locked = (.error e, ledger)) :
    (submit env w).runFrom s =
      (.error (.abort (.burnAfterLock w.total.denom w.total.amount e)),
        { s with registry := registry, ledger := ledger }) := by
  simp only [submit, runFrom_bind, runFrom_ofExcept, hadmits.accepted, Except.mapError_ok,
    runFrom_onRegistry, hadmits.resolved, runFrom_ensureIdAvailable, hadmits.available,
    runFrom_onLedger, hlock, hburn, ↓reduceIte]

open TransitionM in
theorem submit_effect (env : Env) (w : Withdrawal) (s : State L R) :
    SubmitEffect env w s ((submit env w).runFrom s).1 ((submit env w).runFrom s).2 := by
  cases hcheck : w.check env with
  | error e =>
      have hrun : (submit env w).runFrom s = (.error (.invalidArgument e), s) := by
        simp only [submit, runFrom_bind, runFrom_ofExcept, hcheck, Except.mapError_error]
      rw [hrun]
      exact .refused hcheck
  | ok pair =>
      obtain ⟨destination, total⟩ := pair
      obtain rfl : total = w.total := (Withdrawal.check_eq_ok_iff.1 hcheck).2.2.2.2.2.2.2.2
      rcases hresolve : (Resolver.resolveContract w.total.denom).run s.registry with
        ⟨e | ⟨origin, contract⟩, registry⟩
      · have hrun : (submit env w).runFrom s =
            (.error (.registry e), { s with registry := registry }) := by
          simp only [submit, runFrom_bind, runFrom_ofExcept, hcheck, Except.mapError_ok,
            runFrom_onRegistry, hresolve]
        rw [hrun]
        exact .unresolved hcheck hresolve
      cases hids : s.ids.successor with
      | error e =>
          have hrun : (submit env w).runFrom s =
              (.error e, { s with registry := registry }) := by
            simp only [submit, runFrom_bind, runFrom_ofExcept, hcheck, Except.mapError_ok,
              runFrom_onRegistry, hresolve, runFrom_ensureIdAvailable, hids]
          rw [hrun]
          exact .exhausted hcheck hresolve hids
      | ok next =>
          have hadmits : Admits env w s destination origin contract registry next :=
            ⟨hcheck, hresolve, hids⟩
          have hdone {ledger : L}
              (hcollects : Collects w.sender w.total s.ledger origin ledger) :
              SubmitEffect env w s ((submit env w).runFrom s).1 ((submit env w).runFrom s).2 := by
            rw [runFrom_submit_of_collects hadmits hcollects]
            cases hinsert : s.pool.insert (w.toTransfer s.ids.peek destination contract) with
            | error e => exact .duplicate hadmits hcollects hinsert
            | ok pool => exact .recorded hadmits hcollects hinsert
          rcases hlock : (Custody.lock w.sender w.total).run s.ledger with ⟨e | _, locked⟩
          · have hrun : (submit env w).runFrom s =
                (.error (.ledger e), { s with registry := registry, ledger := locked }) := by
              simp only [submit, runFrom_bind, runFrom_ofExcept, hcheck, Except.mapError_ok,
                runFrom_onRegistry, hresolve, runFrom_ensureIdAvailable, hids,
                runFrom_onLedger, hlock]
            rw [hrun]
            exact .notLocked hadmits hlock
          cases origin with
          | native => exact hdone (.native hlock)
          | bridged =>
              rcases hburn : (Custody.burn w.total).run locked with ⟨e | _, ledger⟩
              · rw [runFrom_submit_of_not_burned hadmits hlock hburn]
                exact .notBurned hadmits hlock hburn
              · exact hdone (.bridged hlock hburn)

/-- A submission that ended in a given way got there by one of the effects. -/
theorem submitEffect_of_runFrom {env : Env} {w : Withdrawal} {s s' : State L R}
    {result : Except PoolError UInt64} (h : (submit env w).runFrom s = (result, s')) :
    SubmitEffect env w s result s' := by
  have heffect := submit_effect env w s
  rwa [h] at heffect

-- A withdrawal of vouchers from an account that holds enough of them.
namespace Sample

def contract : Address := ⟨"0x429881672B9AE42b8EbA0E26cD9C73711b891Ca5", by decide⟩

def alice : AccountId := ⟨"alice"⟩

def env : Env := ⟨⟨1⟩, {}, fun _ => .ok ()⟩

def withdrawal : Withdrawal :=
  ⟨alice, contract.text, ⟨Denom.voucher contract, 100⟩, ⟨Denom.voucher contract, 7⟩⟩

/-- Nothing is pending, and the account holds vouchers. -/
def funded : State Ledger Registry where
  ledger := (∅ : Ledger).fund alice ⟨Denom.voucher contract, 1000⟩
  registry := ∅

/-- The withdrawal is pending. -/
def pending : State Ledger Registry := ((submit env withdrawal).runFrom funded).2

example : (submit env withdrawal).runFrom funded = (.ok 1, pending) := by rfl

/-- The withdrawal is pending, and no vouchers can be minted. -/
def unmintable : State Ledger Registry :=
  { pending with ledger := { pending.ledger with switches := { mint := false } } }

def bob : AccountId := ⟨"bob"⟩

/-- A withdrawal of a native asset. -/
def atoms : Withdrawal := ⟨bob, contract.text, ⟨"uatom", 500⟩, ⟨"uatom", 0⟩⟩

end Sample

end WithdrawalPool
