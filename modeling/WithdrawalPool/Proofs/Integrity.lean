/-
A pool that only calls have changed is never found corrupt.  What is pending is in order and in
its place, so the checks that guard against a corrupt pool never fail.
-/
import WithdrawalPool.Proofs.Batching
import WithdrawalPool.Proofs.Store

namespace WithdrawalPool

/-- The failures of a cancellation that blame the pool: the transfer that is found is not in
order, or it is not in its place, or it stays when it is taken out. -/
def PoolError.BlamesPool : PoolError → Prop
  | .notInPool _ => True
  | .duplicate _ => True
  | .corrupted _ => True
  | .invalidArgument (.inconsistentTokens _ _) => True
  | .abort (.tokenContractMismatch _ _ _) => True
  | _ => False

namespace Store

variable {first : UInt64}

theorem Sound.inOrder_of_getById {s : Store} (h : s.Sound first) {id : UInt64} {t : Transfer}
    (hfound : s.pool.getById id = .ok t) : t.InOrder :=
  h.inOrder t (Pool.getById_eq_ok hfound).1

/-- A transfer is pending exactly if it is filed under the contract and at the key that are its
own, and it is filed nowhere else. -/
theorem Sound.find?_eq_some_iff {s : Store} (h : s.Sound first) {contract : Address}
    {key : FeeKey} {t : Transfer} :
    s.pool.find? contract key = some t ↔
      t ∈ s.pool ∧ contract = t.fee.contract ∧ key = ⟨t.fee.amount, t.id⟩ := by
  constructor
  · intro hfind
    exact ⟨Pool.mem_of_find?_eq_some hfind, (h.filed contract key t hfind).symm,
      (FeeGroup.key_of_find?_eq_some hfind).symm⟩
  · rintro ⟨ht, rfl, rfl⟩
    exact h.find?_of_mem ht

section

variable {L R : Type} [Custody L] [Resolver R] {env : Env} {s s' : State L R}

theorem Sound.ne_duplicate_of_submitEffect (h : s.store.Sound first) {w : Withdrawal}
    {e : PoolError} (heffect : SubmitEffect env w s (.error e) s') (what : String) :
    e ≠ .duplicate what := by
  cases heffect with
  | refused => nofun
  | unresolved => nofun
  | exhausted _ _ hids =>
      rw [IdCounter.eq_idsExhausted hids]
      nofun
  | notLocked => nofun
  | notBurned => nofun
  | duplicate _ _ hinsert => exact absurd hinsert (h.insert_ne_error rfl)

theorem Sound.not_blamesPool_of_cancelEffect (h : s.store.Sound first) {id : UInt64}
    {requester : AccountId} {e : PoolError}
    (heffect : CancelEffect env id requester s (.error e) s') : ¬ e.BlamesPool := by
  cases heffect with
  | refused => exact not_false
  | notFound => exact not_false
  | senderMissing _ hfound hempty =>
      rw [(h.inOrder_of_getById hfound).sender] at hempty
      contradiction
  | unauthorized => exact not_false
  | inconsistent _ hfound _ hinconsistent =>
      exact absurd (h.inOrder_of_getById hfound).consistent hinconsistent
  | unresolved => exact not_false
  | misfiled hclaims hremove =>
      obtain ⟨ht, rfl⟩ := Pool.getById_eq_ok hclaims.found
      obtain ⟨pool, hok⟩ := h.remove_of_mem ht
      change s.pool.remove _ _ = _ at hok
      rw [hok] at hremove
      contradiction
  | refundRefused => exact not_false

end

/-- Whatever calls led to a pool, with whatever answers of the collaborators, each pending
transfer is in order and in its place.  So no submission finds its place taken, no cancellation
blames the pool, and every batch can be summed up. -/
theorem never_found_corrupt {ids : IdCounter} {s : Store} (hrun : Leads ⟨∅, ids⟩ s) :
    (∀ t ∈ s.pool, t.sender.isEmpty = false ∧ 0 < t.token.amount ∧
      t.token.contract = t.fee.contract) ∧
    (∀ contract key t, s.pool.find? contract key = some t ↔
      t ∈ s.pool ∧ contract = t.fee.contract ∧ key = ⟨t.fee.amount, t.id⟩) ∧
    (∀ {L R : Type} [Custody L] [Resolver R] (env : Env) (before : State L R),
      before.store = s →
        (∀ w what, ((submit env w).runFrom before).1 ≠ .error (.duplicate what)) ∧
        ∀ id requester e, ((cancel env id requester).runFrom before).1 = .error e →
          ¬ e.BlamesPool) ∧
    ∀ contract cap, ∃ summary, s.pool.feeSummary contract cap = .ok summary := by
  have hsound := (sound_empty ids).leads hrun
  refine ⟨?_, fun contract key t => hsound.find?_eq_some_iff, ?_, ?_⟩
  · intro t ht
    obtain ⟨hsender, hpositive, hconsistent⟩ := hsound.inOrder t ht
    exact ⟨hsender, hpositive, hconsistent⟩
  · rintro L R _ _ env before rfl
    constructor
    · intro w what herror
      exact hsound.ne_duplicate_of_submitEffect (submitEffect_of_runFrom (Prod.ext herror rfl))
        what rfl
    · intro id requester e herror
      exact hsound.not_blamesPool_of_cancelEffect (cancelEffect_of_runFrom (Prod.ext herror rfl))
  · intro contract cap
    exact ⟨_, Pool.Filed.feeSummary_eq_ok hsound.filed contract cap⟩

open Sample in
/-- The sample withdrawal is pending in its place, another account cannot cancel it and does not
blame the pool, and its batch is summed up. -/
theorem never_found_corrupt_of_sample :
    pending.pool.find? contract ⟨7, 1⟩ = some (withdrawal.toTransfer 1 contract contract) ∧
      (withdrawal.toTransfer 1 contract contract).token.contract = contract ∧
      ((cancel env 1 bob).runFrom pending).1 = .error (.unauthorized "bob" 1) ∧
      ¬ (PoolError.unauthorized "bob" 1).BlamesPool ∧
      ∃ summary, pending.pool.feeSummary contract 100 = .ok summary := by
  have hsubmit := Step.submit env withdrawal funded rfl
  have hcancel : ((cancel env 1 bob).runFrom pending).1 = .error (.unauthorized "bob" 1) := by
    decide +kernel
  have hfind : pending.pool.find? contract ⟨7, 1⟩ =
      some (withdrawal.toTransfer 1 contract contract) := by rfl
  obtain ⟨horder, hplace, hcalls, hfees⟩ := never_found_corrupt (.single ⟨_, hsubmit⟩)
  have ht := ((hplace contract ⟨7, 1⟩ _).1 hfind).1
  exact ⟨hfind, (horder _ ht).2.2, hcancel, (hcalls env pending rfl).2 1 bob _ hcancel,
    hfees contract 100⟩

end Store

end WithdrawalPool
