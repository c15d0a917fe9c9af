/-
Histories of a bridge: the pool with its bank and its registry.  Requests are served in any order,
and each success is logged as a deed, so that a log tells what a history did.
-/
import WithdrawalPool.Proofs.Bank
import WithdrawalPool.Proofs.Registration
import WithdrawalPool.Proofs.Store

namespace WithdrawalPool

abbrev Bridge := State Ledger Registry

/-- What a request did that succeeded. -/
inductive Deed where
  | funded (account : AccountId) (coin : Coin)
  | switched (switches : SupplySwitches)
  | registered (denom : Denom) (contract : Address)
  | submitted (id : UInt64) (denom : Denom)
  | cancelled (id : UInt64)
  | removed (t : Transfer)
deriving DecidableEq

namespace Bridge

/-- Nothing is pending, issued or registered. -/
def empty : Bridge := { ledger := ∅, registry := ∅ }

/-- One request, in any environment.  A request that fails has no deed, and may still leave a
change behind. -/
inductive Serves (s : Bridge) : Option Deed → Bridge → Prop
  | fund (account : AccountId) (coin : Coin) :
      Serves s (some (.funded account coin)) { s with ledger := s.ledger.fund account coin }
  | switch (switches : SupplySwitches) :
      Serves s (some (.switched switches))
        { s with ledger := { s.ledger with switches := switches } }
  | register {d : Denom} {contract : Address} {registry : Registry}
      (hregister : s.registry.register d contract = .ok registry) :
      Serves s (some (.registered d contract)) { s with registry := registry }
  | notRegistered {d : Denom} {contract : Address} {e : RegistryError}
      (hregister : s.registry.register d contract = .error e) : Serves s none s
  | submit {env : Env} {w : Withdrawal} {id : UInt64} {s' : Bridge}
      (hsubmit : (WithdrawalPool.submit env w).runFrom s = (.ok id, s')) :
      Serves s (some (.submitted id w.amount.denom)) s'
  | notSubmitted {env : Env} {w : Withdrawal} {e : PoolError} {s' : Bridge}
      (hsubmit : (WithdrawalPool.submit env w).runFrom s = (.error e, s')) : Serves s none s'
  | cancel {env : Env} {id : UInt64} {requester : AccountId} {s' : Bridge}
      (hcancel : (WithdrawalPool.cancel env id requester).runFrom s = (.ok (), s')) :
      Serves s (some (.cancelled id)) s'
  | notCancelled {env : Env} {id : UInt64} {requester : AccountId} {e : PoolError} {s' : Bridge}
      (hcancel : (WithdrawalPool.cancel env id requester).runFrom s = (.error e, s')) :
      Serves s none s'
  | remove {fee : TokenAmount} {id : UInt64} {t : Transfer} {pool : Pool}
      (hremove : s.pool.remove fee id = .ok (t, pool)) :
      Serves s (some (.removed t)) { s with pool := pool }
  | notRemoved {fee : TokenAmount} {id : UInt64} {e : PoolError}
      (hremove : s.pool.remove fee id = .error e) : Serves s none s

/-- Any number of requests one after the other, with their deeds, the latest first. -/
inductive Run (start : Bridge) : List Deed → Bridge → Prop
  | start : Run start [] start
  | done {log : List Deed} {s s' : Bridge} {deed : Deed} (hrun : Run start log s)
      (hserves : Serves s (some deed) s') : Run start (deed :: log) s'
  | failed {log : List Deed} {s s' : Bridge} (hrun : Run start log s)
      (hserves : Serves s none s') : Run start log s'

variable {start s s' : Bridge} {log : List Deed} {deed : Option Deed}

theorem Serves.leads (h : Serves s deed s') : Store.Leads s.store s'.store := by
  cases h with
  | fund => exact .refl
  | switch => exact .refl
  | register => exact .refl
  | notRegistered => exact .refl
  | submit hsubmit => exact Store.leads_of_submit hsubmit
  | notSubmitted hsubmit => exact Store.leads_of_submit hsubmit
  | cancel hcancel => exact Store.leads_of_cancel hcancel
  | notCancelled hcancel => exact Store.leads_of_cancel hcancel
  | remove hremove => exact .single ⟨_, Store.Step.removed hremove⟩
  | notRemoved => exact .refl

theorem Run.leads (h : Run start log s) : Store.Leads start.store s.store := by
  induction h with
  | start => exact .refl
  | done _ hserves ih => exact ih.trans hserves.leads
  | failed _ hserves ih => exact ih.trans hserves.leads

/-- What a submission that succeeds does to a bridge. -/
structure Submits (s : Bridge) (w : Withdrawal) (id : UInt64) (s' : Bridge)
    (destination : Address) (origin : Origin) (contract : Address) (next : UInt64) : Prop where
  fresh : id = s.ids.peek
  available : s.ids.successor = .ok next
  positive : 0 < w.amount.amount
  resolved : s.registry.contractOf w.amount.denom = .ok (origin, contract)
  covered : w.total.amount ≤ s.ledger.balance w.sender w.amount.denom
  store : s'.store =
    ⟨s.pool.place contract (w.toTransfer id destination contract), ⟨some next⟩⟩
  ledger : s'.ledger = s.ledger.setBook w.amount.denom
    ((s.ledger.book w.amount.denom).collect origin w.sender w.total.amount)
  registry : s'.registry = s.registry

theorem exists_accepted_submits {env : Env} {w : Withdrawal} {id : UInt64}
    (h : (submit env w).runFrom s = (.ok id, s')) :
    ∃ destination origin contract next, w.check env = .ok (destination, w.total) ∧
      s.Submits w id s' destination origin contract next := by
  cases submitEffect_of_runFrom h with
  | @recorded destination contract origin registry next ledger pool hadmits hcollects hinsert =>
      obtain ⟨_, rfl⟩ := Pool.insert_eq_ok_iff.1 hinsert
      obtain ⟨hresolved, hregistry⟩ := Prod.mk.inj hadmits.resolved
      obtain ⟨hcovered, hledger⟩ := Ledger.setBook_of_collects hcollects
      obtain ⟨_, _, _, _, _, _, hpositive, _⟩ :=
        Withdrawal.check_eq_ok_iff.1 hadmits.accepted
      exact ⟨destination, origin, contract, next, hadmits.accepted, rfl, hadmits.available,
        hpositive, hresolved, hcovered, rfl, hledger, hregistry.symm⟩

theorem exists_submits {env : Env} {w : Withdrawal} {id : UInt64}
    (h : (submit env w).runFrom s = (.ok id, s')) :
    ∃ destination origin contract next, s.Submits w id s' destination origin contract next := by
  obtain ⟨destination, origin, contract, next, _, hsubmits⟩ := exists_accepted_submits h
  exact ⟨destination, origin, contract, next, hsubmits⟩

section

variable {first : UInt64} {w : Withdrawal} {id : UInt64} {destination : Address}
  {origin : Origin} {contract : Address} {next : UInt64}

theorem Submits.pool_eq (h : s.Submits w id s' destination origin contract next) :
    s'.pool = s.pool.place contract (w.toTransfer id destination contract) :=
  congrArg Store.pool h.store

theorem Submits.ids_eq (h : s.Submits w id s' destination origin contract next) :
    s'.ids = ⟨some next⟩ :=
  congrArg Store.ids h.store

/-- The transfer that a submission recorded can be taken out again. -/
theorem Submits.remove_recorded (h : s.Submits w id s' destination origin contract next)
    (hsound : s.store.Sound first) :
    s'.pool.remove (w.toTransfer id destination contract).fee id =
      .ok (w.toTransfer id destination contract, s.pool) := by
  have hid : (w.toTransfer id destination contract).id = s.store.ids.peek := h.fresh
  rw [h.pool_eq]
  exact Pool.remove_place (hsound.find?_of_id hid)

theorem Submits.walk_perm (h : s.Submits w id s' destination origin contract next)
    (hsound : s.store.Sound first) :
    (s'.pool.walk .all).Perm (w.toTransfer id destination contract :: s.pool.walk .all) :=
  Pool.walk_remove_perm (h.remove_recorded hsound)

theorem Submits.mem_iff (h : s.Submits w id s' destination origin contract next)
    (hsound : s.store.Sound first) {t : Transfer} :
    t ∈ s'.pool ↔ t = w.toTransfer id destination contract ∨ t ∈ s.pool := by
  rw [Pool.mem_def, (h.walk_perm hsound).mem_iff, List.mem_cons]
  rfl

theorem Submits.peek_lt (h : s.Submits w id s' destination origin contract next) :
    s.ids.peek < s'.ids.peek := by
  rw [h.ids_eq]
  exact IdCounter.peek_lt_of_successor h.available

end

/-- What a cancellation that succeeds does to a bridge. -/
structure Cancels (s : Bridge) (t : Transfer) (s' : Bridge) (origin : Origin) (d : Denom) :
    Prop where
  pending : t ∈ s.pool
  resolved : s.registry.denomOf t.contract = (origin, d)
  covered : origin = .native → t.value ≤ s.ledger.custody d
  removed : s.pool.remove t.fee t.id = .ok (t, s'.pool)
  ids : s'.ids = s.ids
  ledger : s'.ledger = s.ledger.setBook d ((s.ledger.book d).refund origin t.sender t.value)
  registry : s'.registry = s.registry

section

variable {t : Transfer} {origin : Origin} {d : Denom}

/-- A claimed transfer is paid back in what its contract carries, and resolving the contract leaves
the registry alone. -/
theorem denomOf_of_claims {env : Env} {id : UInt64} {requester : AccountId} {registry : Registry}
    (hclaims : Claims env id requester s t origin d registry) :
    s.registry.denomOf t.contract = (origin, d) ∧ registry = s.registry := by
  obtain ⟨hresolved, hregistry⟩ := Prod.mk.inj hclaims.resolved
  have hcontract : t.token.contract = t.contract := hclaims.consistent
  rw [hcontract] at hresolved
  exact ⟨Except.ok.inj hresolved, hregistry.symm⟩

/-- The sender of a pending transfer may claim it, where ids start at one. -/
theorem claims_of_mem {env : Env} (hsound : s.store.Sound 1) (hcontext : env.context.isZero = false)
    (ht : t ∈ s.pool) (hdenom : s.registry.denomOf t.contract = (origin, d)) :
    Claims env t.id t.sender s t origin d s.registry := by
  have horder := hsound.inOrder t ht
  have hid : 1 ≤ t.id := (hsound.issued t ht).1
  have hcontract : t.token.contract = t.contract := horder.consistent
  refine ⟨⟨hcontext, hid, horder.sender⟩, hsound.getById_eq_ok_iff.2 ⟨ht, rfl⟩, rfl,
    horder.consistent, ?_⟩
  rw [hcontract, ← hdenom]
  rfl

end

theorem exists_cancels {first : UInt64} (hsound : s.store.Sound first) {env : Env} {id : UInt64}
    {requester : AccountId} (h : (cancel env id requester).runFrom s = (.ok (), s')) :
    ∃ t origin d, t.id = id ∧ t.sender = requester ∧ s.Cancels t s' origin d := by
  cases cancelEffect_of_runFrom h with
  | @refunded t taken origin d registry pool ledger hclaims hremove hrefund =>
      obtain ⟨ht, rfl⟩ := Pool.getById_eq_ok hclaims.found
      obtain rfl := hclaims.sender
      obtain ⟨hdenom, hregistry⟩ := denomOf_of_claims hclaims
      obtain ⟨hcovered, hledger⟩ := Ledger.setBook_of_refunds hrefund
      have htaken : taken = t := Pool.Filed.taken_eq hsound.filed ht hremove
      rw [htaken] at hremove
      exact ⟨t, origin, d, rfl, rfl, ht, hdenom, hcovered, hremove, rfl, hledger, hregistry⟩

theorem registry_of_submit {env : Env} {w : Withdrawal} {result : Except PoolError UInt64}
    (h : (submit env w).runFrom s = (result, s')) : s'.registry = s.registry := by
  have hkept {answer : Except RegistryError (Origin × Address)} {registry : Registry}
      (hresolve : (Resolver.resolveContract w.total.denom).run s.registry = (answer, registry)) :
      registry = s.registry :=
    (Prod.mk.inj hresolve).2.symm
  cases submitEffect_of_runFrom h with
  | refused => rfl
  | unresolved _ hresolve => exact hkept hresolve
  | exhausted _ hresolve => exact hkept hresolve
  | notLocked hadmits => exact hkept hadmits.resolved
  | notBurned hadmits => exact hkept hadmits.resolved
  | duplicate hadmits => exact hkept hadmits.resolved
  | recorded hadmits => exact hkept hadmits.resolved

theorem registry_of_cancel {env : Env} {id : UInt64} {requester : AccountId}
    {result : Except PoolError Unit} (h : (cancel env id requester).runFrom s = (result, s')) :
    s'.registry = s.registry := by
  have hkept {contract : Address} {answer : Except RegistryError (Origin × Denom)}
      {registry : Registry}
      (hresolve : (Resolver.resolveDenom contract).run s.registry = (answer, registry)) :
      registry = s.registry :=
    (Prod.mk.inj hresolve).2.symm
  cases cancelEffect_of_runFrom h with
  | refused => rfl
  | notFound => rfl
  | senderMissing => rfl
  | unauthorized => rfl
  | inconsistent => rfl
  | unresolved _ _ _ _ hresolve => exact hkept hresolve
  | misfiled hclaims => exact hkept hclaims.resolved
  | refundRefused hclaims => exact hkept hclaims.resolved
  | refunded hclaims => exact hkept hclaims.resolved

/-- Only a registration changes the registry. -/
theorem Serves.registry (h : Serves s deed s') :
    s'.registry = s.registry ∧ (∀ d contract, deed ≠ some (.registered d contract)) ∨
      ∃ d contract, deed = some (.registered d contract) ∧
        s.registry.register d contract = .ok s'.registry := by
  cases h with
  | register hregister => exact Or.inr ⟨_, _, rfl, hregister⟩
  | fund => exact Or.inl ⟨rfl, by simp⟩
  | switch => exact Or.inl ⟨rfl, by simp⟩
  | notRegistered => exact Or.inl ⟨rfl, by simp⟩
  | submit hsubmit => exact Or.inl ⟨registry_of_submit hsubmit, by simp⟩
  | notSubmitted hsubmit => exact Or.inl ⟨registry_of_submit hsubmit, by simp⟩
  | cancel hcancel => exact Or.inl ⟨registry_of_cancel hcancel, by simp⟩
  | notCancelled hcancel => exact Or.inl ⟨registry_of_cancel hcancel, by simp⟩
  | remove => exact Or.inl ⟨rfl, by simp⟩
  | notRemoved => exact Or.inl ⟨rfl, by simp⟩

/-- What every registration keeps, every history keeps. -/
theorem Run.registry_induction {p : Registry → Prop} (h : Run start log s)
    (hstart : p start.registry)
    (hregister : ∀ (r r' : Registry) (d : Denom) (contract : Address), p r →
      r.register d contract = .ok r' → p r') : p s.registry := by
  have hserved {s s' : Bridge} {deed : Option Deed} (hserves : Serves s deed s')
      (hp : p s.registry) : p s'.registry := by
    rcases hserves.registry with ⟨hkept, _⟩ | ⟨d, contract, _, hregistered⟩
    · rw [hkept]
      exact hp
    · exact hregister _ _ d contract hp hregistered
  induction h with
  | start => exact hstart
  | done _ hserves ih => exact hserved hserves ih
  | failed _ hserves ih => exact hserved hserves ih

theorem Run.soundRegistry (h : Run start log s) (hsound : start.registry.Sound) :
    s.registry.Sound :=
  h.registry_induction hsound fun _ _ _ _ hr => hr.register

/-- A registered contract keeps its denomination through every history. -/
theorem Run.find?_of_some (h : Run start log s) {contract : Address} {d : Denom}
    (hfind : start.registry.denoms.find? contract = some d) :
    s.registry.denoms.find? contract = some d := by
  apply h.registry_induction (p := fun r => r.denoms.find? contract = some d) hfind
  intro r r' _ _ hr hregister
  exact Registry.find?_register_of_some hregister hr

/-- A contract that was not registered is registered exactly if the history did it. -/
theorem Run.find?_of_none (h : Run start log s) {contract : Address}
    (hfind : start.registry.denoms.find? contract = none) (d : Denom) :
    s.registry.denoms.find? contract = some d ↔ Deed.registered d contract ∈ log := by
  induction h with
  | start => simp [hfind]
  | @done log s s' deed hrun hserves ih =>
      rw [List.mem_cons, ← ih]
      rcases hserves.registry with ⟨hsame, hother⟩ | ⟨d', contract', hdeed, hregister⟩
      · rw [hsame]
        have hne : Deed.registered d contract ≠ deed := fun heq => hother d contract (by rw [heq])
        exact ⟨Or.inr, fun h => h.resolve_left hne⟩
      · obtain rfl := Option.some.inj hdeed
        rw [Deed.registered.injEq]
        by_cases hcontract : contract = contract'
        · subst hcontract
          have hfree := (Registry.register_eq_ok_iff.1 hregister).2.2.2.1
          rw [Registry.find?_of_register hregister, hfree]
          simp [eq_comm]
        · rw [Registry.find?_register_of_ne hregister hcontract]
          simp [hcontract]
  | failed _ hserves ih =>
      rcases hserves.registry with ⟨hsame, _⟩ | ⟨_, _, hdeed, _⟩
      · rw [hsame, ih]
      · contradiction

end Bridge

namespace Sample

/-- Vouchers are pending, and atoms are issued and registered on a contract. -/
def listedOn (carrier : Address) : Bridge where
  pool := pending.pool
  ids := pending.ids
  ledger := pending.ledger.fund bob ⟨"uatom", 1000⟩
  registry :=
    { contracts := (∅ : SortedMap Denom Address).insert "uatom" carrier
      denoms := (∅ : SortedMap Address Denom).insert carrier "uatom" }
  events := pending.events

/-- Vouchers and atoms are pending. -/
def mixedOn (carrier : Address) : Bridge := ((submit env atoms).runFrom (listedOn carrier)).2

end Sample

end WithdrawalPool
