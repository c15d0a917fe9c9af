/-
The ids that submissions return.  They are consecutive, and only a submission that succeeds takes
one, so no two transfers that were ever pending share an id.
-/
import WithdrawalPool.Proofs.Store

namespace WithdrawalPool

section

variable {L R : Type} [Custody L] [Resolver R] {s s' : State L R} {env : Env} {first : UInt64}

/-- A submission that succeeds returns the id that the counter stood at, and moves the counter on
by one. -/
theorem ids_of_submit_eq_ok {w : Withdrawal} {id : UInt64}
    (h : (submit env w).runFrom s = (.ok id, s')) :
    id = s.ids.peek ∧ s'.ids.peek.toNat = s.ids.peek.toNat + 1 := by
  cases submitEffect_of_runFrom h with
  | recorded hadmits => exact ⟨rfl, IdCounter.successor_eq_ok_iff.1 hadmits.available⟩

/-- A submission that fails leaves a sound store as it was. -/
theorem Store.Sound.store_of_submit_eq_error (hsound : s.store.Sound first) {w : Withdrawal}
    {e : PoolError} (h : (submit env w).runFrom s = (.error e, s')) : s'.store = s.store := by
  cases submitEffect_of_runFrom h with
  | refused => rfl
  | unresolved => rfl
  | exhausted => rfl
  | notLocked => rfl
  | notBurned => rfl
  | duplicate _ _ hinsert => exact absurd hinsert (hsound.insert_ne_error rfl)

theorem ids_of_cancel {id : UInt64} {requester : AccountId} {result : Except PoolError Unit}
    (h : (cancel env id requester).runFrom s = (result, s')) : s'.ids = s.ids := by
  cases cancelEffect_of_runFrom h <;> rfl

end

namespace Store

/-- A run of calls, with the ids that its submissions returned, in the order of the calls.  Each
call may have collaborators of its own, in any state. -/
inductive Issues (start : Store) : List UInt64 → Store → Prop
  | start : Issues start [] start
  | submitted {L R : Type} [Custody L] [Resolver R] {ids : List UInt64} {s s' : State L R}
      {env : Env} {w : Withdrawal} {id : UInt64} (hissues : Issues start ids s.store)
      (hsubmit : (submit env w).runFrom s = (.ok id, s')) : Issues start (ids ++ [id]) s'.store
  | notSubmitted {L R : Type} [Custody L] [Resolver R] {ids : List UInt64} {s s' : State L R}
      {env : Env} {w : Withdrawal} {e : PoolError} (hissues : Issues start ids s.store)
      (hsubmit : (submit env w).runFrom s = (.error e, s')) : Issues start ids s'.store
  | cancel {L R : Type} [Custody L] [Resolver R] {ids : List UInt64} {s s' : State L R}
      {env : Env} {id : UInt64} {requester : AccountId} {result : Except PoolError Unit}
      (hissues : Issues start ids s.store)
      (hcancel : (cancel env id requester).runFrom s = (result, s')) : Issues start ids s'.store
  | removed {ids : List UInt64} {s : Store} {fee : TokenAmount} {id : UInt64} {t : Transfer}
      {pool : Pool} (hissues : Issues start ids s)
      (hremove : s.pool.remove fee id = .ok (t, pool)) : Issues start ids { s with pool := pool }
  | notRemoved {ids : List UInt64} {s : Store} {fee : TokenAmount} {id : UInt64} {e : PoolError}
      (hissues : Issues start ids s) (hremove : s.pool.remove fee id = .error e) :
      Issues start ids s

variable {start s : Store} {counter : IdCounter} {ids : List UInt64}

theorem Issues.leads (h : Issues start ids s) : Leads start s := by
  induction h with
  | start => exact .refl
  | submitted _ hsubmit ih => exact ih.trans (leads_of_submit hsubmit)
  | notSubmitted _ hsubmit ih => exact ih.trans (leads_of_submit hsubmit)
  | cancel _ hcancel ih => exact ih.trans (leads_of_cancel hcancel)
  | removed _ hremove ih => exact ih.tail ⟨_, Step.removed hremove⟩
  | notRemoved _ _ ih => exact ih

theorem Issues.sound (h : Issues ⟨∅, counter⟩ ids s) : s.Sound counter.peek :=
  (sound_empty counter).leads h.leads

/-- The ids count up from where the counter stood at first, and the counter stands right after
the last of them. -/
theorem Issues.count (h : Issues ⟨∅, counter⟩ ids s) :
    ids.map UInt64.toNat = List.range' counter.peek.toNat ids.length ∧
      s.ids.peek.toNat = counter.peek.toNat + ids.length := by
  induction h with
  | start => exact ⟨rfl, rfl⟩
  | @submitted L R _ _ ids s s' env w id _ hsubmit ih =>
      obtain ⟨hids, hpeek⟩ := ih
      obtain ⟨rfl, hnext⟩ := ids_of_submit_eq_ok hsubmit
      have hbefore : s.ids.peek.toNat = counter.peek.toNat + ids.length := hpeek
      rw [List.length_append, List.length_singleton]
      constructor
      · rw [List.map_append, hids, List.range'_concat, Nat.one_mul, ← hbefore]
        rfl
      · change s'.ids.peek.toNat = _
        rw [hnext, hbefore, Nat.add_assoc]
  | notSubmitted hissues hsubmit ih =>
      rw [hissues.sound.store_of_submit_eq_error hsubmit]
      exact ih
  | cancel _ hcancel ih =>
      change _ ∧ (State.ids _).peek.toNat = _
      rw [ids_of_cancel hcancel]
      exact ih
  | removed _ _ ih => exact ih
  | notRemoved _ _ ih => exact ih

theorem Issues.lt_peek (h : Issues ⟨∅, counter⟩ ids s) {id : UInt64} (hid : id ∈ ids) :
    id < s.ids.peek := by
  obtain ⟨hids, hpeek⟩ := h.count
  have hmem : id.toNat ∈ List.range' counter.peek.toNat ids.length :=
    hids ▸ List.mem_map_of_mem hid
  rw [UInt64.lt_iff_toNat_lt, hpeek]
  exact (List.mem_range'_1.1 hmem).2

theorem Issues.nodup (h : Issues ⟨∅, counter⟩ ids s) : ids.Nodup := by
  apply List.Nodup.of_map UInt64.toNat
  rw [h.count.1]
  exact List.nodup_range'

/-- From an empty pool on, submissions return consecutive ids and never the largest one, only the
successful ones take an id from the counter, and the pending transfers have distinct ids out of
those that were taken. -/
theorem ids_issued_once (h : Issues ⟨∅, counter⟩ ids s) :
    ids.map UInt64.toNat = List.range' counter.peek.toNat ids.length ∧
      s.ids.peek.toNat = counter.peek.toNat + ids.length ∧
      18446744073709551615 ∉ ids ∧
      ((s.pool.walk .all).map Transfer.id).Nodup ∧
      (∀ t ∈ s.pool, counter.peek ≤ t.id ∧ t.id < s.ids.peek) ∧
      ∀ {L R : Type} [Custody L] [Resolver R] (env : Env) (w : Withdrawal) (e : PoolError)
        (before after : State L R), before.store = s →
        (submit env w).runFrom before = (.error e, after) → after.ids = before.ids := by
  refine ⟨h.count.1, h.count.2, ?_, h.sound.distinct, h.sound.issued, ?_⟩
  · intro hmax
    have hlt := UInt64.lt_iff_toNat_lt.1 (h.lt_peek hmax)
    have hpeek := s.ids.peek.toNat_lt
    change 18446744073709551615 < s.ids.peek.toNat at hlt
    omega
  · rintro L R _ _ env w e before after rfl hsubmit
    exact congrArg Store.ids (h.sound.store_of_submit_eq_error hsubmit)

end Store

open Sample in
/-- The sample state, with a counter that has one id left. -/
def Sample.nearlyExhausted : State Ledger Registry :=
  { funded with ids := IdCounter.startingAt 18446744073709551614 }

namespace Store

open Sample in
/-- The last id is handed out, and the next submission fails and takes none. -/
theorem ids_issued_once_of_nearlyExhausted :
    ∃ last, (submit env withdrawal).runFrom nearlyExhausted = (.ok 18446744073709551614, last) ∧
      ((last.pool.walk .all).map Transfer.id).Nodup ∧
      (withdrawal.toTransfer 18446744073709551614 contract contract).id < last.ids.peek ∧
      ((submit env withdrawal).runFrom last).1 = .error .idsExhausted ∧
      ((submit env withdrawal).runFrom last).2.ids = last.ids := by
  have hsubmit : (submit env withdrawal).runFrom nearlyExhausted =
      (.ok 18446744073709551614, ((submit env withdrawal).runFrom nearlyExhausted).2) := by rfl
  have hfails :
      (submit env withdrawal).runFrom ((submit env withdrawal).runFrom nearlyExhausted).2 =
        (.error .idsExhausted, ((submit env withdrawal).runFrom
          ((submit env withdrawal).runFrom nearlyExhausted).2).2) := by rfl
  have hissues : Issues ⟨∅, .startingAt 18446744073709551614⟩ _ nearlyExhausted.store := .start
  obtain ⟨_, _, _, hdistinct, hissued, hkept⟩ := ids_issued_once (hissues.submitted hsubmit)
  have hmem : withdrawal.toTransfer 18446744073709551614 contract contract ∈
      ((submit env withdrawal).runFrom nearlyExhausted).2.pool := by
    rw [Pool.mem_def]
    decide +kernel
  exact ⟨_, hsubmit, hdistinct, (hissued _ hmem).2, congrArg Prod.fst hfails,
    hkept env withdrawal _ _ _ rfl hfails⟩

end Store

end WithdrawalPool
