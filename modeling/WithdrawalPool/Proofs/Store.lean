/-
The pool and its counter from call to call, whatever the collaborators answer.  Ids are handed out
once and in order, so a pending transfer is known by its id.
-/
import Mathlib.Data.List.Nodup
import Mathlib.Logic.Relation
import WithdrawalPool.Proofs.Cancellation
import WithdrawalPool.Proofs.Filing
import WithdrawalPool.Proofs.Submission

namespace WithdrawalPool

theorem IdCounter.peek_lt_of_successor {c : IdCounter} {next : UInt64}
    (h : c.successor = .ok next) : c.peek < next := by
  rw [UInt64.lt_iff_toNat_lt, successor_eq_ok_iff.1 h]
  exact Nat.lt_succ_self _

theorem IdCounter.eq_idsExhausted {c : IdCounter} {e : PoolError} (h : c.successor = .error e) :
    e = .idsExhausted := by
  unfold successor at h
  split at h
  next => cases h
  next =>
    cases h
    rfl

/-- What the pool keeps from one call to the next. -/
structure Store where
  pool : Pool := ∅
  ids : IdCounter := {}

/-- The part of a state that no collaborator owns. -/
def State.store {L R : Type} (s : State L R) : Store := ⟨s.pool, s.ids⟩

/-- A call that may change a store. -/
inductive Call where
  | submit (env : Env) (w : Withdrawal)
  | cancel (env : Env) (id : UInt64) (requester : AccountId)
  | remove (fee : TokenAmount) (id : UInt64)

/-- What every transfer that a submission records has. -/
structure Transfer.InOrder (t : Transfer) : Prop where
  sender : t.sender.isEmpty = false
  positive : 0 < t.token.amount
  consistent : t.Consistent

namespace Store

/-- One call, with any collaborators in any state.  A call that fails may leave a change behind,
so failures are steps too. -/
inductive Step (before : Store) : Call → Store → Prop
  | submit {L R : Type} [Custody L] [Resolver R] (env : Env) (w : Withdrawal) (s : State L R)
      (hs : s.store = before) :
      Step before (.submit env w) ((WithdrawalPool.submit env w).runFrom s).2.store
  | cancel {L R : Type} [Custody L] [Resolver R] (env : Env) (id : UInt64)
      (requester : AccountId) (s : State L R) (hs : s.store = before) :
      Step before (.cancel env id requester)
        ((WithdrawalPool.cancel env id requester).runFrom s).2.store
  | removed {fee : TokenAmount} {id : UInt64} {t : Transfer} {pool : Pool}
      (hremove : before.pool.remove fee id = .ok (t, pool)) :
      Step before (.remove fee id) { before with pool := pool }
  | notRemoved {fee : TokenAmount} {id : UInt64} {e : PoolError}
      (hremove : before.pool.remove fee id = .error e) :
      Step before (.remove fee id) before

/-- Any number of calls lead from one store to the other. -/
def Leads : Store → Store → Prop :=
  Relation.ReflTransGen fun before after => ∃ call, Step before call after

theorem leads_of_submit {L R : Type} [Custody L] [Resolver R] {env : Env} {w : Withdrawal}
    {result : Except PoolError UInt64} {s s' : State L R}
    (h : (submit env w).runFrom s = (result, s')) : Leads s.store s'.store := by
  have hstep := Step.submit env w s rfl
  rw [h] at hstep
  exact .single ⟨_, hstep⟩

theorem leads_of_cancel {L R : Type} [Custody L] [Resolver R] {env : Env} {id : UInt64}
    {requester : AccountId} {result : Except PoolError Unit} {s s' : State L R}
    (h : (cancel env id requester).runFrom s = (result, s')) : Leads s.store s'.store := by
  have hstep := Step.cancel env id requester s rfl
  rw [h] at hstep
  exact .single ⟨_, hstep⟩

/-- The invariant of a store whose ids start at `first`: transfers are filed under the contract of
their fee, their ids are distinct and were handed out, and each of them is in order. -/
structure Sound (first : UInt64) (s : Store) : Prop where
  filed : ∀ contract key t, s.pool.find? contract key = some t → t.contract = contract
  distinct : ((s.pool.walk .all).map Transfer.id).Nodup
  issued : ∀ t ∈ s.pool, first ≤ t.id ∧ t.id < s.ids.peek
  started : first ≤ s.ids.peek
  inOrder : ∀ t ∈ s.pool, t.InOrder

theorem sound_empty (ids : IdCounter) : Sound ids.peek ⟨∅, ids⟩ where
  filed contract key t h := by cases h
  distinct := List.nodup_nil
  issued t h := absurd h (Pool.not_mem_empty t)
  started := UInt64.le_refl _
  inOrder t h := absurd h (Pool.not_mem_empty t)

variable {first : UInt64} {s s' : Store} {call : Call}

theorem Sound.eq_of_id (h : s.Sound first) {t u : Transfer} (ht : t ∈ s.pool) (hu : u ∈ s.pool)
    (hid : t.id = u.id) : t = u :=
  List.inj_on_of_nodup_map h.distinct ht hu hid

theorem Sound.find?_of_mem (h : s.Sound first) {t : Transfer} (ht : t ∈ s.pool) :
    s.pool.find? t.contract t.key = some t :=
  Pool.Filed.find?_of_mem h.filed ht

theorem Sound.peek_fresh (h : s.Sound first) {t : Transfer} (ht : t ∈ s.pool) :
    t.id ≠ s.ids.peek := by
  intro hid
  have hlt := (h.issued t ht).2
  rw [hid] at hlt
  exact UInt64.lt_irrefl _ hlt

/-- No transfer is in the place of one that would carry the next id. -/
theorem Sound.find?_peek (h : s.Sound first) (contract : Address) (fee : Nat) :
    s.pool.find? contract ⟨fee, s.ids.peek⟩ = none := by
  cases hfind : s.pool.find? contract ⟨fee, s.ids.peek⟩ with
  | none => rfl
  | some t =>
      have hkey := FeeGroup.key_of_find?_eq_some hfind
      exact absurd (congrArg FeeKey.id hkey) (h.peek_fresh (Pool.mem_of_find?_eq_some hfind))

theorem Sound.find?_of_id (h : s.Sound first) {t : Transfer} (hid : t.id = s.ids.peek) :
    s.pool.find? t.contract t.key = none := by
  rw [Transfer.key, hid]
  exact h.find?_peek t.contract t.fee.amount

theorem Sound.insert_ne_error (h : s.Sound first) {t : Transfer} (hid : t.id = s.ids.peek)
    {e : PoolError} : s.pool.insert t ≠ .error e := by
  intro hinsert
  obtain ⟨⟨other, hother⟩, _⟩ := Pool.insert_eq_error_iff.1 hinsert
  rw [h.find?_of_id hid] at hother
  contradiction

theorem Sound.getById_eq_ok_iff (h : s.Sound first) {id : UInt64} {t : Transfer} :
    s.pool.getById id = .ok t ↔ t ∈ s.pool ∧ t.id = id := by
  constructor
  · exact Pool.getById_eq_ok
  · rintro ⟨ht, hid⟩
    cases hget : s.pool.getById id with
    | error e => exact absurd hid ((Pool.getById_eq_error_iff.1 hget).1 t ht)
    | ok u =>
        obtain ⟨hu, huid⟩ := Pool.getById_eq_ok hget
        rw [h.eq_of_id ht hu (hid.trans huid.symm)]

theorem Sound.remove_of_mem (h : s.Sound first) {t : Transfer} (ht : t ∈ s.pool) :
    ∃ pool, s.pool.remove t.fee t.id = .ok (t, pool) :=
  ⟨_, Pool.remove_eq_ok_iff.2 ⟨h.find?_of_mem ht, rfl⟩⟩

/-- What a call does to a sound store: nothing, or it records one transfer with the next id, or it
takes one transfer out. -/
inductive Change (s : Store) : Call → Store → Prop
  | kept (call : Call) : Change s call s
  | recorded {env : Env} {w : Withdrawal} {destination contract : Address} {next : UInt64}
      (haccepted : w.check env = .ok (destination, w.total))
      (hnext : s.ids.successor = .ok next) :
      Change s (.submit env w)
        ⟨s.pool.place contract (w.toTransfer s.ids.peek destination contract), ⟨some next⟩⟩
  | cancelled {env : Env} {t : Transfer} {pool : Pool}
      (hremove : s.pool.remove t.fee t.id = .ok (t, pool)) :
      Change s (.cancel env t.id t.sender) { s with pool := pool }
  | removed {t : Transfer} {pool : Pool} (hremove : s.pool.remove t.fee t.id = .ok (t, pool)) :
      Change s (.remove t.fee t.id) { s with pool := pool }

theorem Sound.change_of_submitEffect {L R : Type} [Custody L] [Resolver R] {env : Env}
    {w : Withdrawal} {before after : State L R} {result : Except PoolError UInt64}
    (h : before.store.Sound first) (heffect : SubmitEffect env w before result after) :
    Change before.store (.submit env w) after.store := by
  cases heffect with
  | refused => exact .kept _
  | unresolved => exact .kept _
  | exhausted => exact .kept _
  | notLocked => exact .kept _
  | notBurned => exact .kept _
  | duplicate _ _ hinsert => exact absurd hinsert (h.insert_ne_error rfl)
  | recorded hadmits hcollects hinsert =>
      obtain ⟨_, rfl⟩ := Pool.insert_eq_ok_iff.1 hinsert
      exact .recorded hadmits.accepted hadmits.available

theorem Sound.change_of_cancelEffect {L R : Type} [Custody L] [Resolver R] {env : Env}
    {id : UInt64} {requester : AccountId} {before after : State L R}
    {result : Except PoolError Unit} (h : before.store.Sound first)
    (heffect : CancelEffect env id requester before result after) :
    Change before.store (.cancel env id requester) after.store := by
  -- Both ways of getting past the removal take out the transfer that was found.
  have hcancelled {t taken : Transfer} {origin : Origin} {denom : Denom} {registry : R}
      {pool : Pool} (hclaims : Claims env id requester before t origin denom registry)
      (hremove : before.pool.remove t.fee id = .ok (taken, pool)) :
      Change before.store (.cancel env id requester) { before.store with pool := pool } := by
    obtain ⟨ht, rfl⟩ := Pool.getById_eq_ok hclaims.found
    obtain rfl := hclaims.sender
    rw [Pool.Filed.taken_eq h.filed ht hremove] at hremove
    exact .cancelled hremove
  cases heffect with
  | refused => exact .kept _
  | notFound => exact .kept _
  | senderMissing => exact .kept _
  | unauthorized => exact .kept _
  | inconsistent => exact .kept _
  | unresolved => exact .kept _
  | misfiled => exact .kept _
  | refundRefused hclaims hremove => exact hcancelled hclaims hremove
  | refunded hclaims hremove => exact hcancelled hclaims hremove

theorem Sound.change_of_step (h : s.Sound first) (hstep : Step s call s') :
    Change s call s' := by
  cases hstep with
  | submit env w state hs =>
      subst hs
      exact h.change_of_submitEffect (submit_effect env w state)
  | cancel env id requester state hs =>
      subst hs
      exact h.change_of_cancelEffect (cancel_effect env id requester state)
  | @removed fee id t pool hremove =>
      obtain ⟨rfl, rfl⟩ := Pool.Filed.fee_of_remove h.filed hremove
      exact .removed hremove
  | notRemoved => exact .kept _

theorem Sound.remove (h : s.Sound first) {fee : TokenAmount} {id : UInt64} {t : Transfer}
    {pool : Pool} (hremove : s.pool.remove fee id = .ok (t, pool)) :
    Sound first { s with pool := pool } where
  filed := Pool.Filed.remove h.filed hremove
  distinct := by
    have hperm := (Pool.walk_remove_perm hremove).map Transfer.id
    exact (List.nodup_cons.1 (hperm.nodup_iff.1 h.distinct)).2
  issued := fun u hu => h.issued u ((Pool.mem_remove_iff hremove).2 (Or.inr hu))
  started := h.started
  inOrder := fun u hu => h.inOrder u ((Pool.mem_remove_iff hremove).2 (Or.inr hu))

theorem Sound.record (h : s.Sound first) {t : Transfer} {next : UInt64}
    (hid : t.id = s.ids.peek) (hnext : s.ids.successor = .ok next) (horder : t.InOrder) :
    Sound first ⟨s.pool.place t.contract t, ⟨some next⟩⟩ := by
  have hfree := h.find?_of_id hid
  have hlt := IdCounter.peek_lt_of_successor hnext
  refine ⟨Pool.Filed.place h.filed t, ?_, ?_, ?_, ?_⟩
  · have hperm := (Pool.walk_place_perm hfree).map Transfer.id
    rw [hperm.nodup_iff, List.map_cons, List.nodup_cons]
    refine ⟨?_, h.distinct⟩
    intro hmem
    obtain ⟨u, hu, huid⟩ := List.mem_map.1 hmem
    exact h.peek_fresh hu (huid.trans hid)
  · intro u hu
    rcases (Pool.mem_place_iff hfree).1 hu with rfl | hu
    · rw [hid]
      exact ⟨h.started, hlt⟩
    · exact ⟨(h.issued u hu).1, UInt64.lt_trans (h.issued u hu).2 hlt⟩
  · exact UInt64.le_trans h.started (UInt64.le_of_lt hlt)
  · intro u hu
    rcases (Pool.mem_place_iff hfree).1 hu with rfl | hu
    · exact horder
    · exact h.inOrder u hu

theorem inOrder_toTransfer {env : Env} {w : Withdrawal} {destination : Address} {total : Coin}
    (haccepted : w.check env = .ok (destination, total)) (id : UInt64) (contract : Address) :
    (w.toTransfer id destination contract).InOrder := by
  obtain ⟨_, hsender, _, _, _, _, hpositive, _⟩ := Withdrawal.check_eq_ok_iff.1 haccepted
  exact ⟨hsender, hpositive, rfl⟩

theorem Sound.step (h : s.Sound first) (hstep : Step s call s') : s'.Sound first := by
  cases h.change_of_step hstep with
  | kept => exact h
  | recorded haccepted hnext => exact h.record rfl hnext (inOrder_toTransfer haccepted _ _)
  | cancelled hremove => exact h.remove hremove
  | removed hremove => exact h.remove hremove

theorem Sound.leads (h : s.Sound first) (hleads : Leads s s') : s'.Sound first := by
  induction hleads with
  | refl => exact h
  | tail _ hstep ih =>
      obtain ⟨call, hstep⟩ := hstep
      exact ih.step hstep

theorem Sound.peek_le_of_step (h : s.Sound first) (hstep : Step s call s') :
    s.ids.peek ≤ s'.ids.peek := by
  cases h.change_of_step hstep with
  | kept => exact UInt64.le_refl _
  | recorded haccepted hnext => exact UInt64.le_of_lt (IdCounter.peek_lt_of_successor hnext)
  | cancelled => exact UInt64.le_refl _
  | removed => exact UInt64.le_refl _

/-- Only a transfer with a new id joins the pending ones. -/
theorem Sound.mem_of_step (h : s.Sound first) (hstep : Step s call s') {t : Transfer}
    (ht : t ∈ s'.pool) (hid : t.id < s.ids.peek) : t ∈ s.pool := by
  cases h.change_of_step hstep with
  | kept => exact ht
  | @recorded env w destination contract next haccepted hnext =>
      have hfree := h.find?_peek contract w.fee.amount
      rcases (Pool.mem_place_iff hfree).1 ht with rfl | ht
      · exact absurd hid (UInt64.lt_irrefl _)
      · exact ht
  | cancelled hremove => exact (Pool.mem_remove_iff hremove).2 (Or.inr ht)
  | removed hremove => exact (Pool.mem_remove_iff hremove).2 (Or.inr ht)

/-- An id that was handed out is never given to another transfer. -/
theorem Sound.mem_of_leads (h : s.Sound first) (hleads : Leads s s') {t : Transfer}
    (ht : t ∈ s'.pool) (hid : t.id < s.ids.peek) : t ∈ s.pool := by
  have hmono : s.ids.peek ≤ s'.ids.peek ∧ (t ∈ s'.pool → t ∈ s.pool) := by
    clear ht
    induction hleads with
    | refl => exact ⟨UInt64.le_refl _, fun ht => ht⟩
    | tail hleads hstep ih =>
        obtain ⟨call, hstep⟩ := hstep
        have hsound := h.leads hleads
        refine ⟨UInt64.le_trans ih.1 (hsound.peek_le_of_step hstep), fun ht => ?_⟩
        exact ih.2 (hsound.mem_of_step hstep ht (UInt64.lt_of_lt_of_le hid ih.1))
  exact hmono.2 ht

/-- A transfer that is pending stays the only one with its id. -/
theorem Sound.eq_of_leads (h : s.Sound first) (hleads : Leads s s') {t u : Transfer}
    (ht : t ∈ s.pool) (hu : u ∈ s'.pool) (hid : u.id = t.id) : u = t := by
  have hlt : u.id < s.ids.peek := by
    rw [hid]
    exact (h.issued t ht).2
  exact h.eq_of_id (h.mem_of_leads hleads hu hlt) ht hid

end Store

end WithdrawalPool
