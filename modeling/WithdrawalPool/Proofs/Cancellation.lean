/-
What a cancellation does, exit by exit.  A transfer that is found is claimed by its sender, taken
out of the pool and only then paid back, so a refused refund leaves it taken out.
-/
import WithdrawalPool.Proofs.Contents
import WithdrawalPool.Proofs.Running
import WithdrawalPool.Transition.Cancel

namespace WithdrawalPool

variable {L R : Type} [Custody L]

/-- The keeper of the coins pays the coin back to the account, and mints it first if it is a
voucher. -/
inductive Refunds (account : AccountId) (coin : Coin) (before : L) : Origin → L → Prop
  | native {after : L} (hunlock : (Custody.unlock account coin).run before = (.ok (), after)) :
      Refunds account coin before .native after
  | bridged {minted after : L} (hmint : (Custody.mint coin).run before = (.ok (), minted))
      (hunlock : (Custody.unlock account coin).run minted = (.ok (), after)) :
      Refunds account coin before .bridged after

/-- The keeper of the coins refuses to pay the coin back, at the mint or at the unlock. -/
inductive RefundRefused (account : AccountId) (coin : Coin) (before : L) :
    Origin → CustodyError → L → Prop
  | native {e : CustodyError} {after : L}
      (hunlock : (Custody.unlock account coin).run before = (.error e, after)) :
      RefundRefused account coin before .native e after
  | mint {e : CustodyError} {after : L}
      (hmint : (Custody.mint coin).run before = (.error e, after)) :
      RefundRefused account coin before .bridged e after
  | unlock {e : CustodyError} {minted after : L}
      (hmint : (Custody.mint coin).run before = (.ok (), minted))
      (hunlock : (Custody.unlock account coin).run minted = (.error e, after)) :
      RefundRefused account coin before .bridged e after

open TransitionM in
theorem refund_effect (origin : Origin) (account : AccountId) (coin : Coin) (s : State L R) :
    (∃ ledger, Refunds account coin s.ledger origin ledger ∧
      (refund origin account coin).runFrom s = (.ok (), { s with ledger := ledger })) ∨
    ∃ e ledger, RefundRefused account coin s.ledger origin e ledger ∧
      (refund origin account coin).runFrom s =
        (.error (.ledger e), { s with ledger := ledger }) := by
  cases origin with
  | native =>
      rcases hunlock : (Custody.unlock account coin).run s.ledger with ⟨e | _, ledger⟩
      · refine Or.inr ⟨e, ledger, .native hunlock, ?_⟩
        simp [refund, runFrom_onLedger, hunlock]
      · refine Or.inl ⟨ledger, .native hunlock, ?_⟩
        simp [refund, runFrom_onLedger, hunlock]
  | bridged =>
      rcases hmint : (Custody.mint coin).run s.ledger with ⟨e | _, minted⟩
      · refine Or.inr ⟨e, minted, .mint hmint, ?_⟩
        simp [refund, runFrom_bind, runFrom_onLedger, hmint]
      rcases hunlock : (Custody.unlock account coin).run minted with ⟨e | _, ledger⟩
      · refine Or.inr ⟨e, ledger, .unlock hmint hunlock, ?_⟩
        simp [refund, runFrom_bind, runFrom_onLedger, hmint, hunlock]
      · refine Or.inl ⟨ledger, .bridged hmint hunlock, ?_⟩
        simp [refund, runFrom_bind, runFrom_onLedger, hmint, hunlock]

open TransitionM in
theorem runFrom_refund_of_refunds {origin : Origin} {account : AccountId} {coin : Coin}
    {s : State L R} {ledger : L} (h : Refunds account coin s.ledger origin ledger) :
    (refund origin account coin).runFrom s = (.ok (), { s with ledger := ledger }) := by
  cases h with
  | native hunlock => simp [refund, runFrom_onLedger, hunlock]
  | bridged hmint hunlock =>
      simp [refund, runFrom_bind, runFrom_onLedger, hmint, hunlock]

variable [Resolver R]

/-- The arguments that a cancellation asks for. -/
def CancelArguments (env : Env) (id : UInt64) (requester : AccountId) : Prop :=
  env.context.isZero = false ∧ 1 ≤ id ∧ requester.isEmpty = false

/-- What the sender is paid back. -/
def Transfer.value (t : Transfer) : Nat := t.token.amount + t.fee.amount

/-- The requester may have the transfer paid back: it is the first one found under its id, it is
the requester's own and in order, and its contract is resolved. -/
structure Claims (env : Env) (id : UInt64) (requester : AccountId) (s : State L R) (t : Transfer)
    (origin : Origin) (denom : Denom) (registry : R) : Prop where
  arguments : CancelArguments env id requester
  found : s.pool.getById id = .ok t
  sender : t.sender = requester
  consistent : t.Consistent
  resolved : (Resolver.resolveDenom t.token.contract).run s.registry =
    (.ok (origin, denom), registry)

/-- The ways in which a cancellation ends, each with the state that it leaves behind. -/
inductive CancelEffect (env : Env) (id : UInt64) (requester : AccountId) (s : State L R) :
    Except PoolError Unit → State L R → Prop
  | refused (hnot : ¬ CancelArguments env id requester) :
      CancelEffect env id requester s (.error (.invalidArgument .cancellation)) s
  | notFound (harguments : CancelArguments env id requester) (habsent : ∀ t ∈ s.pool, t.id ≠ id) :
      CancelEffect env id requester s (.error (.unknownTransfer id)) s
  | senderMissing {t : Transfer} (harguments : CancelArguments env id requester)
      (hfound : s.pool.getById id = .ok t) (hempty : t.sender.isEmpty = true) :
      CancelEffect env id requester s (.error (.senderMissing id)) s
  | unauthorized {t : Transfer} (harguments : CancelArguments env id requester)
      (hfound : s.pool.getById id = .ok t) (hnonempty : t.sender.isEmpty = false)
      (hsender : t.sender ≠ requester) :
      CancelEffect env id requester s (.error (.unauthorized requester.text id)) s
  | inconsistent {t : Transfer} (harguments : CancelArguments env id requester)
      (hfound : s.pool.getById id = .ok t) (hsender : t.sender = requester)
      (hinconsistent : ¬ t.Consistent) :
      CancelEffect env id requester s
        (.error (.invalidArgument
          (.inconsistentTokens t.fee.contract.text t.token.contract.text))) s
  | unresolved {t : Transfer} {e : RegistryError} {registry : R}
      (harguments : CancelArguments env id requester) (hfound : s.pool.getById id = .ok t)
      (hsender : t.sender = requester) (hconsistent : t.Consistent)
      (hresolve : (Resolver.resolveDenom t.token.contract).run s.registry = (.error e, registry)) :
      CancelEffect env id requester s (.error (.registry e)) { s with registry := registry }
  | misfiled {t : Transfer} {origin : Origin} {denom : Denom} {registry : R} {e : PoolError}
      (hclaims : Claims env id requester s t origin denom registry)
      (hremove : s.pool.remove t.fee id = .error e) :
      CancelEffect env id requester s (.error (.notInPool id)) { s with registry := registry }
  | refundRefused {t taken : Transfer} {origin : Origin} {denom : Denom} {registry : R}
      {pool : Pool} {e : CustodyError} {ledger : L}
      (hclaims : Claims env id requester s t origin denom registry)
      (hremove : s.pool.remove t.fee id = .ok (taken, pool))
      (hrefund : RefundRefused requester ⟨denom, t.value⟩ s.ledger origin e ledger) :
      CancelEffect env id requester s (.error (.ledger e))
        { s with pool := pool, registry := registry, ledger := ledger }
  | refunded {t taken : Transfer} {origin : Origin} {denom : Denom} {registry : R}
      {pool : Pool} {ledger : L}
      (hclaims : Claims env id requester s t origin denom registry)
      (hremove : s.pool.remove t.fee id = .ok (taken, pool))
      (hrefund : Refunds requester ⟨denom, t.value⟩ s.ledger origin ledger) :
      CancelEffect env id requester s (.ok ())
        { s with
          pool := pool
          registry := registry
          ledger := ledger
          events := s.events ++
            [.cancelled ⟨env.config.bridgeContract, env.config.bridgeChainId, id⟩] }

theorem not_cancelArguments_iff {env : Env} {id : UInt64} {requester : AccountId} :
    ¬ CancelArguments env id requester ↔
      env.context.isZero = true ∨ id < 1 ∨ requester.isEmpty = true := by
  unfold CancelArguments
  rw [not_and_or, not_and_or, UInt64.not_le, Bool.not_eq_false, Bool.not_eq_false]

open TransitionM in
theorem runFrom_cancel_of_not_cancelArguments {env : Env} {id : UInt64} {requester : AccountId}
    {s : State L R} (hnot : ¬ CancelArguments env id requester) :
    (cancel env id requester).runFrom s = (.error (.invalidArgument .cancellation), s) := by
  simp only [cancel, not_cancelArguments_iff.1 hnot, ↓reduceIte, runFrom_bind, runFrom_throw]

open TransitionM in
/-- A transfer that its sender may claim is resolved, taken out and paid back, in this order. -/
theorem runFrom_cancel_of_found {env : Env} {id : UInt64} {requester : AccountId}
    {s : State L R} {t : Transfer} (harguments : CancelArguments env id requester)
    (hfound : s.pool.getById id = .ok t) (hsender : t.sender = requester)
    (hconsistent : t.Consistent) :
    (cancel env id requester).runFrom s =
      match (Resolver.resolveDenom t.token.contract).run s.registry with
      | (.error e, registry) => (.error (.registry e), { s with registry := registry })
      | (.ok (origin, denom), registry) =>
        match s.pool.remove t.fee id with
        | .error _ => (.error (.notInPool id), { s with registry := registry })
        | .ok (_, pool) =>
          (do
            refund origin requester ⟨denom, t.value⟩
            emit (.cancelled
              ⟨env.config.bridgeContract, env.config.bridgeChainId, id⟩)).runFrom
            { s with registry := registry, pool := pool } := by
  obtain ⟨hcontext, hid, hnonempty⟩ := harguments
  have htotal : t.token.add? t.fee = some ⟨t.token.contract, t.value⟩ := if_pos hconsistent
  simp only [cancel, hcontext, UInt64.not_lt.2 hid, hnonempty, Bool.false_eq_true, or_self,
    ↓reduceIte, runFrom_bind, runFrom_get, runFrom_ofExcept, hfound, hsender, ne_eq,
    not_true_eq_false, hconsistent, runFrom_onRegistry, runFrom_takeTransfer, htotal]
  rcases (Resolver.resolveDenom t.token.contract).run s.registry with
    ⟨e | ⟨origin, denom⟩, registry⟩
  · rfl
  cases hremove : s.pool.remove t.fee id with
  | error e => simp only [hremove]
  | ok pair =>
      simp only [hremove, Pool.find?_of_remove_eq_ok hremove, Option.isSome_none,
        Bool.false_eq_true, ↓reduceIte, runFrom_bind]

/-- A transfer that its sender may claim and that is where it should be is cancelled, if the keeper
of the coins pays it back. -/
theorem runFrom_cancel_of_refunds {env : Env} {id : UInt64} {requester : AccountId}
    {s : State L R} {t taken : Transfer} {origin : Origin} {denom : Denom} {registry : R}
    {pool : Pool} {ledger : L} (hclaims : Claims env id requester s t origin denom registry)
    (hremove : s.pool.remove t.fee id = .ok (taken, pool))
    (hrefund : Refunds requester ⟨denom, t.value⟩ s.ledger origin ledger) :
    (cancel env id requester).runFrom s =
      (.ok (),
        { s with
          pool := pool
          registry := registry
          ledger := ledger
          events := s.events ++
            [.cancelled ⟨env.config.bridgeContract, env.config.bridgeChainId, id⟩] }) := by
  have hpaid := runFrom_refund_of_refunds (s := { s with registry := registry, pool := pool })
    hrefund
  rw [runFrom_cancel_of_found hclaims.arguments hclaims.found hclaims.sender hclaims.consistent]
  simp only [hclaims.resolved, hremove, TransitionM.runFrom_bind, hpaid, TransitionM.runFrom_emit]

open TransitionM in
theorem cancel_effect (env : Env) (id : UInt64) (requester : AccountId) (s : State L R) :
    CancelEffect env id requester s ((cancel env id requester).runFrom s).1
      ((cancel env id requester).runFrom s).2 := by
  by_cases harguments : CancelArguments env id requester
  swap
  · rw [runFrom_cancel_of_not_cancelArguments harguments]
    exact .refused harguments
  have hcontext := harguments.1
  have hid := UInt64.not_lt.2 harguments.2.1
  have hnonempty := harguments.2.2
  cases hfound : s.pool.getById id with
  | error e =>
      obtain ⟨habsent, rfl⟩ := Pool.getById_eq_error_iff.1 hfound
      have hrun : (cancel env id requester).runFrom s = (.error (.unknownTransfer id), s) := by
        simp only [cancel, hcontext, hid, hnonempty, Bool.false_eq_true, or_self, ↓reduceIte,
          runFrom_bind, runFrom_get, runFrom_ofExcept, hfound]
      rw [hrun]
      exact .notFound harguments habsent
  | ok t =>
      by_cases hempty : t.sender.isEmpty = true
      · have hrun : (cancel env id requester).runFrom s = (.error (.senderMissing id), s) := by
          simp only [cancel, hcontext, hid, hnonempty, Bool.false_eq_true, or_self, ↓reduceIte,
            runFrom_bind, runFrom_get, runFrom_ofExcept, hfound, hempty, runFrom_throw]
        rw [hrun]
        exact .senderMissing harguments hfound hempty
      by_cases hsender : t.sender = requester
      swap
      · have hrun : (cancel env id requester).runFrom s =
            (.error (.unauthorized requester.text id), s) := by
          simp only [cancel, hcontext, hid, hnonempty, Bool.false_eq_true, or_self, ↓reduceIte,
            runFrom_bind, runFrom_get, runFrom_ofExcept, hfound, hempty, ne_eq, hsender,
            not_false_eq_true, runFrom_throw]
        rw [hrun]
        exact .unauthorized harguments hfound (Bool.not_eq_true _ ▸ hempty) hsender
      by_cases hconsistent : t.Consistent
      swap
      · have hrun : (cancel env id requester).runFrom s =
            (.error (.invalidArgument
              (.inconsistentTokens t.fee.contract.text t.token.contract.text)), s) := by
          simp only [cancel, hcontext, hid, hnonempty, Bool.false_eq_true, or_self, ↓reduceIte,
            runFrom_bind, runFrom_get, runFrom_ofExcept, hfound, hsender, ne_eq,
            not_true_eq_false, hconsistent, runFrom_throw]
        rw [hrun]
        exact .inconsistent harguments hfound hsender hconsistent
      rw [runFrom_cancel_of_found harguments hfound hsender hconsistent]
      rcases hresolve : (Resolver.resolveDenom t.token.contract).run s.registry with
        ⟨e | ⟨origin, denom⟩, registry⟩
      · exact .unresolved harguments hfound hsender hconsistent hresolve
      have hclaims : Claims env id requester s t origin denom registry :=
        ⟨harguments, hfound, hsender, hconsistent, hresolve⟩
      cases hremove : s.pool.remove t.fee id with
      | error e => exact .misfiled hclaims hremove
      | ok pair =>
          obtain ⟨taken, pool⟩ := pair
          simp only [runFrom_bind]
          rcases refund_effect origin requester ⟨denom, t.value⟩
              { s with registry := registry, pool := pool } with
            ⟨ledger, hrefund, hpaid⟩ | ⟨e, ledger, hrefund, hpaid⟩
          · rw [hpaid]
            exact .refunded hclaims hremove hrefund
          · rw [hpaid]
            exact .refundRefused hclaims hremove hrefund

/-- A cancellation that ended in a given way got there by one of the effects. -/
theorem cancelEffect_of_runFrom {env : Env} {id : UInt64} {requester : AccountId}
    {s s' : State L R} {result : Except PoolError Unit}
    (h : (cancel env id requester).runFrom s = (result, s')) :
    CancelEffect env id requester s result s' := by
  have heffect := cancel_effect env id requester s
  rwa [h] at heffect

end WithdrawalPool
