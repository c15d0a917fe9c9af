/-
How transitions run: where a sequence of calls ends, and in which state.  The state that a failed
call leaves behind is kept, so it is part of every statement here.
-/
import WithdrawalPool.Transition.Basic

namespace WithdrawalPool

namespace Except

variable {ε ε' α β : Type}

theorem bind_eq_ok_iff {x : Except ε α} {f : α → Except ε β} {b : β} :
    (x >>= f) = .ok b ↔ ∃ a, x = .ok a ∧ f a = .ok b := by
  cases x <;> simp [bind, Except.bind]

theorem map_eq_ok_iff {x : Except ε α} {f : α → β} {b : β} :
    f <$> x = .ok b ↔ ∃ a, x = .ok a ∧ f a = b := by
  cases x <;> simp [Functor.map, Except.map]

@[simp] theorem mapError_ok (f : ε → ε') (a : α) :
    (Except.ok a : Except ε α).mapError f = .ok a := rfl

@[simp] theorem mapError_error (f : ε → ε') (e : ε) :
    (Except.error e : Except ε α).mapError f = .error (f e) := rfl

theorem mapError_eq_ok_iff {x : Except ε α} {f : ε → ε'} {a : α} :
    x.mapError f = .ok a ↔ x = .ok a := by
  cases x <;> simp

theorem bind_eq_error_iff {x : Except ε α} {f : α → Except ε β} {e : ε} :
    (x >>= f) = .error e ↔ x = .error e ∨ ∃ a, x = .ok a ∧ f a = .error e := by
  cases x <;> simp [bind, Except.bind]

theorem mapError_eq_error_iff {x : Except ε α} {f : ε → ε'} {e : ε'} :
    x.mapError f = .error e ↔ ∃ cause, x = .error cause ∧ f cause = e := by
  cases x <;> simp

theorem exists_eq_ok_unit {x : Except ε Unit} : (∃ a, x = .ok a) ↔ x = .ok () :=
  ⟨fun ⟨_, h⟩ => h, fun h => ⟨_, h⟩⟩

end Except

namespace TransitionM

variable {L R α β : Type}

/-- Runs a transition: how it ends, and the state that it leaves behind. -/
def runFrom (t : TransitionM L R α) (s : State L R) : Except PoolError α × State L R := t.run s

theorem runFrom_bind (t : TransitionM L R α) (f : α → TransitionM L R β) (s : State L R) :
    (t >>= f).runFrom s =
      match t.runFrom s with
      | (.ok a, s') => (f a).runFrom s'
      | (.error e, s') => (.error e, s') := by
  simp only [runFrom, ExceptT.run_bind]
  change (ExceptT.run t >>= _) s = _
  simp only [bind, StateT.bind]
  rcases (ExceptT.run t : StateM (State L R) (Except PoolError α)) s with ⟨e | a, s'⟩ <;> rfl

@[simp] theorem runFrom_pure (a : α) (s : State L R) :
    (pure a : TransitionM L R α).runFrom s = (.ok a, s) := rfl

@[simp] theorem runFrom_throw (e : PoolError) (s : State L R) :
    (throw e : TransitionM L R α).runFrom s = (.error e, s) := rfl

@[simp] theorem runFrom_get (s : State L R) :
    (get : TransitionM L R (State L R)).runFrom s = (.ok s, s) := rfl

@[simp] theorem runFrom_emit (e : Event) (s : State L R) :
    (emit e).runFrom s = (.ok (), { s with events := s.events ++ [e] }) := rfl

@[simp] theorem runFrom_ofExcept (x : Except PoolError α) (s : State L R) :
    (MonadExcept.ofExcept x : TransitionM L R α).runFrom s = (x, s) := by
  cases x <;> rfl

theorem runFrom_onLedger (refused : CustodyError → PoolError)
    (call : ExceptT CustodyError (StateM L) α) (s : State L R) :
    (onLedger refused call).runFrom s =
      match call.run s.ledger with
      | (.ok a, ledger) => (.ok a, { s with ledger := ledger })
      | (.error e, ledger) => (.error (refused e), { s with ledger := ledger }) := rfl

theorem runFrom_onRegistry (call : ExceptT RegistryError (StateM R) α) (s : State L R) :
    (onRegistry call).runFrom s =
      match call.run s.registry with
      | (.ok a, registry) => (.ok a, { s with registry := registry })
      | (.error e, registry) => (.error (.registry e), { s with registry := registry }) := rfl

theorem runFrom_ensureIdAvailable (s : State L R) :
    ensureIdAvailable.runFrom s =
      match s.ids.successor with
      | .ok _ => (.ok (), s)
      | .error e => (.error e, s) := rfl

theorem runFrom_takeId (s : State L R) :
    takeId.runFrom s =
      match s.ids.take with
      | .ok (id, ids) => (.ok id, { s with ids := ids })
      | .error e => (.error e, s) := rfl

theorem runFrom_takeId_of_successor {s : State L R} {next : UInt64}
    (h : s.ids.successor = .ok next) :
    takeId.runFrom s = (.ok s.ids.peek, { s with ids := ⟨some next⟩ }) := by
  rw [runFrom_takeId, IdCounter.take, h]

theorem runFrom_addTransfer (t : Transfer) (s : State L R) :
    (addTransfer t).runFrom s =
      match s.pool.insert t with
      | .ok pool => (.ok (), { s with pool := pool })
      | .error e => (.error e, s) := rfl

theorem runFrom_takeTransfer (fee : TokenAmount) (id : UInt64) (s : State L R) :
    (takeTransfer fee id).runFrom s =
      match s.pool.remove fee id with
      | .ok (_, pool) => (.ok (), { s with pool := pool })
      | .error _ => (.error (.notInPool id), s) := rfl

end TransitionM

end WithdrawalPool
