/-
A submission that fails leaves everything as it was, unless vouchers were locked and could not be
burned.  Only that failure is fatal.
-/
import WithdrawalPool.Proofs.Bank
import WithdrawalPool.Proofs.Store
import WithdrawalPool.Scenario

namespace WithdrawalPool

namespace WithFaults

variable {ι α ε β : Type} [DecidableEq ι] {call : ι} {fault : ε}
  {action : ExceptT ε (StateM α) β} {s s' : WithFaults ι α}

/-- A call that succeeds reached the collaborator. -/
theorem run_guard_eq_ok {b : β} (h : (guard call fault action).run s = (.ok b, s')) :
    action.run s.inner = (.ok b, s'.inner) := by
  change guard call fault action s = _ at h
  by_cases hdue : s.due call = 0
  · rw [guard, if_pos hdue] at h
    obtain ⟨hresult, rfl⟩ := Prod.mk.inj h
    exact Prod.ext hresult rfl
  · rw [guard, if_neg hdue] at h
    exact absurd (congrArg Prod.fst h) (by simp)

/-- A call that fails is stopped by a fault or is refused by the collaborator. -/
theorem run_guard_eq_error {e : ε} (h : (guard call fault action).run s = (.error e, s')) :
    s'.inner = s.inner ∨ action.run s.inner = (.error e, s'.inner) := by
  change guard call fault action s = _ at h
  by_cases hdue : s.due call = 0
  · rw [guard, if_pos hdue] at h
    obtain ⟨hresult, rfl⟩ := Prod.mk.inj h
    exact Or.inr (Prod.ext hresult rfl)
  · rw [guard, if_neg hdue] at h
    obtain ⟨_, rfl⟩ := Prod.mk.inj h
    exact Or.inl rfl

end WithFaults

namespace Ledger

variable {l l' : WithFaults CustodyCall Ledger} {account : AccountId} {coin : Coin}

theorem lock_inner_of_run (h : (Custody.lock account coin).run l = (.ok (), l')) :
    l.inner.lock account coin = .ok l'.inner :=
  run_attempt_eq_ok (WithFaults.run_guard_eq_ok h)

theorem inner_eq_of_run_guard_attempt {call : CustodyCall} {fault e : CustodyError}
    {change : Ledger → Except CustodyError Ledger}
    (h : (WithFaults.guard call fault (attempt change)).run l = (.error e, l')) :
    l'.inner = l.inner := by
  rcases WithFaults.run_guard_eq_error h with hstopped | hrefused
  · exact hstopped
  · exact run_attempt_eq_error hrefused

end Ledger

theorem Registry.inner_eq_of_run {r r' : WithFaults ResolverCall Registry} {d : Denom}
    {result : Except RegistryError (Origin × Address)}
    (h : (Resolver.resolveContract d).run r = (result, r')) : r'.inner = r.inner := by
  cases result with
  | ok pair => exact (congrArg Prod.snd (WithFaults.run_guard_eq_ok h)).symm
  | error e =>
      rcases WithFaults.run_guard_eq_error h with hstopped | hrefused
      · exact hstopped
      · exact (congrArg Prod.snd hrefused).symm

section

variable {L R : Type} [Custody L] [Resolver R] {env : Env} {w : Withdrawal} {s s' : State L R}

/-- Every check is passed and vouchers are locked, and then they are not burned. -/
def BurnFails (env : Env) (w : Withdrawal) (s : State L R) (cause : CustodyError) : Prop :=
  ∃ destination contract registry next locked ledger,
    Admits env w s destination .bridged contract registry next ∧
      (Custody.lock w.sender w.total).run s.ledger = (.ok (), locked) ∧
      (Custody.burn w.total).run locked = (.error cause, ledger)

/-- With any collaborators, only a failed burn is fatal. -/
theorem SubmitEffect.burnFails {e : PoolError} (heffect : SubmitEffect env w s (.error e) s')
    (hfatal : e.isFatal = true) : ∃ cause, BurnFails env w s cause := by
  cases heffect with
  | refused => contradiction
  | unresolved => contradiction
  | exhausted _ _ hids =>
      rw [IdCounter.eq_idsExhausted hids] at hfatal
      contradiction
  | notLocked => contradiction
  | notBurned hadmits hlock hburn => exact ⟨_, _, _, _, _, _, _, hadmits, hlock, hburn⟩
  | duplicate _ _ hinsert =>
      rw [(Pool.insert_eq_error_iff.1 hinsert).2] at hfatal
      contradiction

end

open Scenario (Machine)

section

variable {env : Env} {w : Withdrawal} {s s' : Machine}

/-- Nothing that lasts is different: faults may be used up, and that is all. -/
structure Scenario.Machine.Unchanged (s s' : Machine) : Prop where
  pool : s'.pool = s.pool
  ids : s'.ids = s.ids
  ledger : s'.ledger.inner = s.ledger.inner
  registry : s'.registry.inner = s.registry.inner
  events : s'.events = s.events

theorem SubmitEffect.unchanged {first : UInt64} {e : PoolError} (hsound : s.store.Sound first)
    (heffect : SubmitEffect env w s (.error e) s') (hfatal : e.isFatal = false) :
    Machine.Unchanged s s' := by
  cases heffect with
  | refused => exact ⟨rfl, rfl, rfl, rfl, rfl⟩
  | unresolved _ hresolve => exact ⟨rfl, rfl, rfl, Registry.inner_eq_of_run hresolve, rfl⟩
  | exhausted _ hresolve => exact ⟨rfl, rfl, rfl, Registry.inner_eq_of_run hresolve, rfl⟩
  | notLocked hadmits hlock =>
      exact ⟨rfl, rfl, Ledger.inner_eq_of_run_guard_attempt hlock,
        Registry.inner_eq_of_run hadmits.resolved, rfl⟩
  | notBurned => contradiction
  | duplicate _ _ hinsert => exact absurd hinsert (hsound.insert_ne_error rfl)

/-- A submission to a pool that only calls have changed is fatal exactly if the burn fails after
the lock, and then the bank is left as the lock left it.  No other failure leaves a trace. -/
theorem submit_atomic_unless_burn_fails {ids : IdCounter} {result : Except PoolError UInt64}
    (hrun : Store.Leads ⟨∅, ids⟩ s.store) (hsubmit : (submit env w).runFrom s = (result, s')) :
    (∀ e, result = .error e → e.isFatal = false → Machine.Unchanged s s') ∧
      ((∃ e, result = .error e ∧ e.isFatal = true) ↔ ∃ cause, BurnFails env w s cause) ∧
      ∀ cause, BurnFails env w s cause →
        result = .error (.abort (.burnAfterLock w.total.denom w.total.amount cause)) ∧
          s'.pool = s.pool ∧ s'.ids = s.ids ∧ s'.events = s.events ∧
          s.ledger.inner.lock w.sender w.total = .ok s'.ledger.inner := by
  have hsound := (Store.sound_empty ids).leads hrun
  have heffect := submitEffect_of_runFrom hsubmit
  have hfails : ∀ cause, BurnFails env w s cause →
      result = .error (.abort (.burnAfterLock w.total.denom w.total.amount cause)) ∧
        s'.pool = s.pool ∧ s'.ids = s.ids ∧ s'.events = s.events ∧
        s.ledger.inner.lock w.sender w.total = .ok s'.ledger.inner := by
    rintro cause ⟨destination, contract, registry, next, locked, ledger, hadmits, hlock, hburn⟩
    rw [runFrom_submit_of_not_burned hadmits hlock hburn] at hsubmit
    obtain ⟨rfl, rfl⟩ := Prod.mk.inj hsubmit
    refine ⟨rfl, rfl, rfl, rfl, ?_⟩
    rw [Ledger.lock_inner_of_run hlock, Ledger.inner_eq_of_run_guard_attempt hburn]
  refine ⟨?_, ⟨?_, ?_⟩, hfails⟩
  · rintro e rfl hfatal
    exact heffect.unchanged hsound hfatal
  · rintro ⟨e, rfl, hfatal⟩
    exact heffect.burnFails hfatal
  · rintro ⟨cause, hcause⟩
    exact ⟨_, (hfails cause hcause).1, rfl⟩

end

open Sample

/-- The sample state, with a burn that is going to fail. -/
def Sample.faulty : Machine where
  ledger := ⟨funded.ledger, fun call => if call = .burn then 1 else 0⟩
  registry := ⟨funded.registry, fun _ => 0⟩

theorem submit_atomic_unless_burn_fails_of_faulty :
    ∃ cause, BurnFails env withdrawal faulty cause ∧
      faulty.ledger.inner.lock alice ⟨Denom.voucher contract, 107⟩ =
        .ok ((submit env withdrawal).runFrom faulty).2.ledger.inner := by
  have hrun : Store.Leads ⟨∅, {}⟩ faulty.store := Relation.ReflTransGen.refl
  have hsubmit : (submit env withdrawal).runFrom faulty =
      (.error (.abort (.burnAfterLock (Denom.voucher contract) 107 (.disabled .burn))),
        ((submit env withdrawal).runFrom faulty).2) := by rfl
  obtain ⟨_, hfatal, hfails⟩ := submit_atomic_unless_burn_fails hrun hsubmit
  obtain ⟨cause, hcause⟩ := hfatal.1 ⟨_, rfl, rfl⟩
  exact ⟨cause, hcause, (hfails cause hcause).2.2.2.2⟩

end WithdrawalPool
