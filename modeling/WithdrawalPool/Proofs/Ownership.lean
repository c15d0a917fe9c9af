/-
Whose coins and whose transfers a request can touch.  A cancellation takes out one transfer of the
requester and pays the requester, a submission charges its sender, and no request touches what
belongs to anybody else, also where transfers were put into the pool directly.
-/
import WithdrawalPool.Proofs.Balances
import WithdrawalPool.Proofs.Building
import WithdrawalPool.Proofs.History

namespace WithdrawalPool

namespace Pool

/-- One transfer is taken from its place, and every other place stays as it is. -/
structure Loses (p : Pool) (t : Transfer) (p' : Pool) : Prop where
  filed : p.find? t.contract t.key = some t
  gone : p'.find? t.contract t.key = none
  others : ∀ contract key, contract ≠ t.contract ∨ key ≠ t.key →
    p'.find? contract key = p.find? contract key

variable {p p' : Pool} {t : Transfer}

theorem loses_of_remove (hremove : p.remove t.fee t.id = .ok (t, p')) : p.Loses t p' where
  filed := (remove_eq_ok_iff.1 hremove).1
  gone := find?_of_remove_eq_ok hremove
  others contract key hother := by
    apply find?_remove_of_ne hremove
    intro hcontract
    exact hother.resolve_left fun hne => hne hcontract

theorem find?_of_insert (hinsert : p.insert t = .ok p') {contract : Address} {key : FeeKey}
    {u : Transfer} (hfind : p.find? contract key = some u) : p'.find? contract key = some u := by
  obtain ⟨hfree, rfl⟩ := insert_eq_ok_iff.1 hinsert
  have hne : contract = t.contract → key ≠ t.key := by
    rintro rfl rfl
    rw [hfree] at hfind
    contradiction
  rw [find?_place_of_ne p hne, hfind]

end Pool

section

variable {R : Type} [Resolver R] {env : Env} {s s' : State Ledger R}

/-- A submission charges its sender the amount and the fee, or nobody anything. -/
theorem balance_of_submit {w : Withdrawal} {result : Except PoolError UInt64}
    (h : (submit env w).runFrom s = (result, s')) :
    (s'.ledger.balance w.sender w.amount.denom = s.ledger.balance w.sender w.amount.denom ∨
      s'.ledger.balance w.sender w.amount.denom + w.total.amount =
        s.ledger.balance w.sender w.amount.denom) ∧
      s.ledger.KeepsOthers w.sender w.amount.denom s'.ledger := by
  have hkept : s.ledger.KeepsOthers w.sender w.amount.denom s.ledger :=
    s.ledger.keepsOthers_refl _ _
  cases submitEffect_of_runFrom h with
  | refused => exact ⟨Or.inl rfl, hkept⟩
  | unresolved => exact ⟨Or.inl rfl, hkept⟩
  | exhausted => exact ⟨Or.inl rfl, hkept⟩
  | notLocked _ hlock =>
      obtain rfl := Ledger.run_attempt_eq_error hlock
      exact ⟨Or.inl rfl, hkept⟩
  | notBurned _ hlock hburn =>
      -- What a failed burn leaves behind is what the lock alone did.
      obtain rfl := Ledger.run_attempt_eq_error hburn
      obtain ⟨hpaid, hothers⟩ := Ledger.balance_of_collects (.native hlock)
      exact ⟨Or.inr hpaid, hothers⟩
  | duplicate _ hcollects =>
      obtain ⟨hpaid, hothers⟩ := Ledger.balance_of_collects hcollects
      exact ⟨Or.inr hpaid, hothers⟩
  | recorded _ hcollects =>
      obtain ⟨hpaid, hothers⟩ := Ledger.balance_of_collects hcollects
      exact ⟨Or.inr hpaid, hothers⟩

/-- A submission moves no transfer that is pending. -/
theorem find?_of_submit {w : Withdrawal} {result : Except PoolError UInt64}
    (h : (submit env w).runFrom s = (result, s')) {contract : Address} {key : FeeKey}
    {t : Transfer} (hfind : s.pool.find? contract key = some t) :
    s'.pool.find? contract key = some t := by
  cases submitEffect_of_runFrom h with
  | refused => exact hfind
  | unresolved => exact hfind
  | exhausted => exact hfind
  | notLocked => exact hfind
  | notBurned => exact hfind
  | duplicate => exact hfind
  | recorded _ _ hinsert => exact Pool.find?_of_insert hinsert hfind

/-- A cancellation that succeeds takes out one transfer of the requester and pays the requester. -/
theorem loses_of_cancel (hfiled : s.pool.Filed) {id : UInt64} {requester : AccountId}
    (h : (cancel env id requester).runFrom s = (.ok (), s')) :
    ∃ t d, t.id = id ∧ t.sender = requester ∧ s.pool.Loses t s'.pool ∧
      s'.ledger.balance requester d = s.ledger.balance requester d + t.value ∧
      s.ledger.KeepsOthers requester d s'.ledger := by
  cases cancelEffect_of_runFrom h with
  | @refunded t taken origin d registry pool ledger hclaims hremove hrefund =>
      obtain ⟨ht, rfl⟩ := Pool.getById_eq_ok hclaims.found
      obtain rfl := hfiled.taken_eq ht hremove
      obtain ⟨hpaid, hothers⟩ := Ledger.balance_of_refunds hrefund
      exact ⟨_, d, rfl, hclaims.sender, Pool.loses_of_remove hremove, hpaid, hothers⟩

/-- A cancellation that fails pays nobody. -/
theorem balance_of_cancel_eq_error {id : UInt64} {requester : AccountId} {e : PoolError}
    (h : (cancel env id requester).runFrom s = (.error e, s')) (other : AccountId) (d : Denom) :
    s'.ledger.balance other d = s.ledger.balance other d := by
  cases cancelEffect_of_runFrom h with
  | refused => rfl
  | notFound => rfl
  | senderMissing => rfl
  | unauthorized => rfl
  | inconsistent => rfl
  | unresolved => rfl
  | misfiled => rfl
  | refundRefused _ _ hrefused => exact Ledger.balance_of_refundRefused hrefused other d

/-- What leaves the pool by a cancellation is the requester's own. -/
theorem sender_of_cancel (hfiled : s.pool.Filed) {id : UInt64} {requester : AccountId}
    {t : Transfer} (ht : t ∈ s.pool)
    (hgone : t ∉ ((cancel env id requester).runFrom s).2.pool) :
    id = t.id ∧ requester = t.sender := by
  have htaken {u taken : Transfer} {origin : Origin} {d : Denom} {registry : R} {pool : Pool}
      (hclaims : Claims env id requester s u origin d registry)
      (hremove : s.pool.remove u.fee id = .ok (taken, pool)) (hout : t ∉ pool) :
      id = t.id ∧ requester = t.sender := by
    obtain ⟨hu, rfl⟩ := Pool.getById_eq_ok hclaims.found
    obtain rfl := hfiled.taken_eq hu hremove
    obtain rfl := ((Pool.mem_remove_iff hremove).1 ht).resolve_right hout
    exact ⟨rfl, hclaims.sender.symm⟩
  have heffect := cancel_effect env id requester s
  generalize (cancel env id requester).runFrom s = outcome at heffect hgone
  obtain ⟨result, after⟩ := outcome
  cases heffect with
  | refused => exact absurd ht hgone
  | notFound => exact absurd ht hgone
  | senderMissing => exact absurd ht hgone
  | unauthorized => exact absurd ht hgone
  | inconsistent => exact absurd ht hgone
  | unresolved => exact absurd ht hgone
  | misfiled => exact absurd ht hgone
  | refundRefused hclaims hremove => exact htaken hclaims hremove hgone
  | refunded hclaims hremove => exact htaken hclaims hremove hgone

end

/-- What may be asked of a bridge, directly of its pool, its bank and its registry too. -/
inductive Request where
  | submit (env : Env) (w : Withdrawal)
  | cancel (env : Env) (id : UInt64) (requester : AccountId)
  | insert (t : Transfer)
  | remove (fee : TokenAmount) (id : UInt64)
  | fund (account : AccountId) (coin : Coin)
  | switch (switches : SupplySwitches)
  | register (d : Denom) (contract : Address)

/-- The account in whose name a request is made. -/
def Request.account : Request → Option AccountId
  | submit _ w => some w.sender
  | cancel _ _ requester => some requester
  | fund account _ => some account
  | insert _ | remove .. | switch _ | register .. => none

/-- The ways for a transfer to leave the pool: it is removed, or its sender cancels it. -/
def Request.Releases (t : Transfer) (request : Request) : Prop :=
  request = remove t.fee t.id ∨ ∃ env, request = cancel env t.id t.sender

namespace Bridge

/-- Serves a request, and keeps what a failure leaves behind. -/
def perform (s : Bridge) : Request → Bridge
  | .submit env w => ((WithdrawalPool.submit env w).runFrom s).2
  | .cancel env id requester => ((WithdrawalPool.cancel env id requester).runFrom s).2
  | .insert t =>
    match s.pool.insert t with
    | .ok pool => { s with pool := pool }
    | .error _ => s
  | .remove fee id =>
    match s.pool.remove fee id with
    | .ok (_, pool) => { s with pool := pool }
    | .error _ => s
  | .fund account coin => { s with ledger := s.ledger.fund account coin }
  | .switch switches => { s with ledger := { s.ledger with switches := switches } }
  | .register d contract =>
    match s.registry.register d contract with
    | .ok registry => { s with registry := registry }
    | .error _ => s

/-- Serves requests one after the other. -/
def performAll (s : Bridge) (requests : List Request) : Bridge := requests.foldl perform s

variable {s : Bridge} {t : Transfer} {account : AccountId}

theorem built_perform (h : s.store.Built) (request : Request) : (s.perform request).store.Built := by
  cases request with
  | submit env w => exact h.called (Store.Step.submit env w s rfl)
  | cancel env id requester => exact h.called (Store.Step.cancel env id requester s rfl)
  | insert t =>
      rw [perform]
      split
      next pool hinsert => exact h.inserted hinsert
      next => exact h
  | remove fee id =>
      rw [perform]
      split
      next taken pool hremove => exact h.called (Store.Step.removed hremove)
      next => exact h
  | fund account coin => exact h
  | switch switches => exact h
  | register d contract =>
      rw [perform]
      split
      next => exact h
      next => exact h

theorem releases_of_perform (hfiled : s.pool.Filed) (ht : t ∈ s.pool) {request : Request}
    (hgone : t ∉ (s.perform request).pool) : request.Releases t := by
  obtain ⟨key, hfind⟩ := Pool.exists_find?_of_mem ht
  cases request with
  | submit env w =>
      exact absurd (Pool.mem_of_find?_eq_some (find?_of_submit rfl hfind)) hgone
  | cancel env id requester =>
      obtain ⟨rfl, rfl⟩ := sender_of_cancel hfiled ht hgone
      exact Or.inr ⟨env, rfl⟩
  | insert u =>
      rw [perform] at hgone
      split at hgone
      next pool hinsert =>
          exact absurd (Pool.mem_of_find?_eq_some (Pool.find?_of_insert hinsert hfind)) hgone
      next => exact absurd ht hgone
  | remove fee id =>
      rw [perform] at hgone
      split at hgone
      next taken pool hremove =>
          obtain rfl := ((Pool.mem_remove_iff hremove).1 ht).resolve_right hgone
          obtain ⟨rfl, rfl⟩ := hfiled.fee_of_remove hremove
          exact Or.inl rfl
      next => exact absurd ht hgone
  | fund account coin => exact absurd ht hgone
  | switch switches => exact absurd ht hgone
  | register d contract =>
      rw [perform] at hgone
      split at hgone
      next => exact absurd ht hgone
      next => exact absurd ht hgone

/-- A request in another name leaves the balances of an account alone. -/
theorem balance_perform_of_ne {request : Request} (hfiled : s.pool.Filed)
    (h : request.account ≠ some account) (d : Denom) :
    (s.perform request).ledger.balance account d = s.ledger.balance account d := by
  cases request with
  | submit env w =>
      have hne : account ≠ w.sender := fun heq => h (congrArg some heq.symm)
      exact (balance_of_submit rfl).2 account d (Or.inl hne)
  | cancel env id requester =>
      have hne : account ≠ requester := fun heq => h (congrArg some heq.symm)
      rcases hcancel : (WithdrawalPool.cancel env id requester).runFrom s with ⟨e | _, s'⟩
      · rw [perform, hcancel]
        exact balance_of_cancel_eq_error hcancel account d
      · obtain ⟨_, _, _, _, _, _, hothers⟩ := loses_of_cancel hfiled hcancel
        rw [perform, hcancel]
        exact hothers account d (Or.inl hne)
  | insert t =>
      rw [perform]
      split <;> rfl
  | remove fee id =>
      rw [perform]
      split <;> rfl
  | fund other coin =>
      have hne : account ≠ other := fun heq => h (congrArg some heq.symm)
      have hothers : s.ledger.KeepsOthers other coin.denom (s.ledger.fund other coin) :=
        Ledger.keepsOthers_setBook fun _ hother => Book.balance_fund_of_ne _ hother _
      exact hothers account d (Or.inl hne)
  | switch switches => rfl
  | register d contract =>
      rw [perform]
      split <;> rfl

/-- What leaves the pool in the course of some requests leaves it at one of them. -/
theorem exists_releases_of_performAll (hbuilt : s.store.Built) {requests : List Request}
    (ht : t ∈ s.pool) (hgone : t ∉ (s.performAll requests).pool) :
    ∃ before request after, requests = before ++ request :: after ∧
      t ∈ (s.performAll before).pool ∧ t ∉ ((s.performAll before).perform request).pool ∧
      request.Releases t := by
  induction requests generalizing s with
  | nil => exact absurd ht hgone
  | cons request rest ih =>
      by_cases hstays : t ∈ (s.perform request).pool
      · obtain ⟨before, later, after, rfl, hin, hout, hreleases⟩ :=
          ih (built_perform hbuilt request) hstays hgone
        exact ⟨request :: before, later, after, rfl, hin, hout, hreleases⟩
      · exact ⟨[], request, rest, rfl, ht, hstays, releases_of_perform hbuilt.filed ht hstays⟩

/-- An account in whose name nothing is asked keeps its balances. -/
theorem balance_performAll_of_ne (hbuilt : s.store.Built) {requests : List Request}
    (h : ∀ request ∈ requests, request.account ≠ some account) (d : Denom) :
    (s.performAll requests).ledger.balance account d = s.ledger.balance account d := by
  induction requests generalizing s with
  | nil => rfl
  | cons request rest ih =>
      have hfirst := balance_perform_of_ne hbuilt.filed (h request List.mem_cons_self) d
      have hrest := ih (built_perform hbuilt request) fun later hlater =>
        h later (List.mem_cons_of_mem _ hlater)
      rw [← hfirst]
      exact hrest

/-- A cancellation that succeeds takes out one transfer, which has the id and is the requester's,
and pays its amount and its fee to the requester in one denomination.  A submission charges its
sender the amount and the fee in the denomination submitted, or charges nothing.  Neither changes
any other balance or touches another transfer.  So in the course of any requests a transfer leaves
the pool only by a removal or by a cancellation of its sender, and an account in whose name nothing
is asked keeps its balances. -/
theorem only_the_parties_are_touched (hbuilt : s.store.Built) :
    (∀ env id requester s', (cancel env id requester).runFrom s = (.ok (), s') →
      ∃ t d, t.id = id ∧ t.sender = requester ∧ s.pool.Loses t s'.pool ∧
        s'.ledger.balance requester d =
          s.ledger.balance requester d + (t.token.amount + t.fee.amount) ∧
        s.ledger.KeepsOthers requester d s'.ledger) ∧
    (∀ env w result s', (submit env w).runFrom s = (result, s') →
      (s'.ledger.balance w.sender w.amount.denom = s.ledger.balance w.sender w.amount.denom ∨
        s'.ledger.balance w.sender w.amount.denom + (w.amount.amount + w.fee.amount) =
          s.ledger.balance w.sender w.amount.denom) ∧
        s.ledger.KeepsOthers w.sender w.amount.denom s'.ledger ∧
        ∀ contract key t, s.pool.find? contract key = some t →
          s'.pool.find? contract key = some t) ∧
    ∀ requests,
      (∀ t ∈ s.pool, t ∉ (s.performAll requests).pool →
        ∃ before request after, requests = before ++ request :: after ∧
          t ∈ (s.performAll before).pool ∧ t ∉ ((s.performAll before).perform request).pool ∧
          (request = .remove t.fee t.id ∨ ∃ env, request = .cancel env t.id t.sender)) ∧
      ∀ account, (∀ request ∈ requests, request.account ≠ some account) →
        ∀ d, (s.performAll requests).ledger.balance account d = s.ledger.balance account d := by
  refine ⟨fun env id requester s' hcancel => loses_of_cancel hbuilt.filed hcancel, ?_, ?_⟩
  · intro env w result s' hsubmit
    obtain ⟨hcharged, hothers⟩ := balance_of_submit hsubmit
    exact ⟨hcharged, hothers, fun _ _ _ hfind => find?_of_submit hsubmit hfind⟩
  · intro requests
    constructor
    · intro t ht hgone
      exact exists_releases_of_performAll hbuilt ht hgone
    · intro account hnever d
      exact balance_performAll_of_ne hbuilt hnever d

open Sample in
/-- Another account tries to cancel the sample withdrawal in vain, and then its sender does. -/
theorem only_the_parties_are_touched_of_sample :
    pending.store.Built ∧
      withdrawal.toTransfer 1 contract contract ∈ pending.pool ∧
      withdrawal.toTransfer 1 contract contract ∉
        (performAll pending [.cancel env 1 bob, .cancel env 1 alice]).pool ∧
      (∃ t d, t.id = 1 ∧ t.sender = alice ∧ pending.pool.Loses t
          ((cancel env 1 alice).runFrom pending).2.pool ∧
        ((cancel env 1 alice).runFrom pending).2.ledger.balance alice d =
          pending.ledger.balance alice d + (t.token.amount + t.fee.amount)) ∧
      ∀ d, (performAll pending [.cancel env 1 bob]).ledger.balance alice d =
        pending.ledger.balance alice d := by
  have hbuilt : pending.store.Built :=
    (Store.Built.start _).called (Store.Step.submit env withdrawal funded rfl)
  have hin : withdrawal.toTransfer 1 contract contract ∈ pending.pool := by
    rw [Pool.mem_def]
    decide +kernel
  have hout : withdrawal.toTransfer 1 contract contract ∉
      (performAll pending [.cancel env 1 bob, .cancel env 1 alice]).pool := by
    rw [Pool.mem_def]
    decide +kernel
  have hcancel : (cancel env 1 alice).runFrom pending =
      (.ok (), ((cancel env 1 alice).runFrom pending).2) := by rfl
  have hbob : ∀ request ∈ [Request.cancel env 1 bob], request.account ≠ some alice := by
    intro request hrequest
    obtain rfl := List.mem_singleton.1 hrequest
    decide
  obtain ⟨hcancels, _, hruns⟩ := only_the_parties_are_touched hbuilt
  obtain ⟨t, d, hid, hsender, hloses, hpaid, _⟩ := hcancels env 1 alice _ hcancel
  exact ⟨hbuilt, hin, hout, ⟨t, d, hid, hsender, hloses, hpaid⟩,
    (hruns [.cancel env 1 bob]).2 alice hbob⟩

end Bridge

end WithdrawalPool
