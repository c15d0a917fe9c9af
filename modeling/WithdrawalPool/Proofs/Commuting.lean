/-
Requests in either order.  Collections and refunds of a balanced book commute wherever either order
is covered, and an id is handed out to the first of two submissions, whichever that is.  So two
requests that succeed in both orders leave the same behind, except that two submissions exchange
their ids.
-/
import Mathlib.Logic.Equiv.Basic
import WithdrawalPool.Proofs.Conservation
import WithdrawalPool.Proofs.FeeOrder
import WithdrawalPool.Proofs.Flat
import WithdrawalPool.Proofs.History

namespace WithdrawalPool

universe u v

namespace SortedMap

variable {κ : Type u} {α : Type v} [Ord κ] [Std.LawfulEqOrd κ] [Std.TransOrd κ]

theorem erase_insert_of_ne (m : SortedMap κ α) {key other : κ} (h : other ≠ key) (a : α) :
    (m.insert key a).erase other = (m.erase other).insert key a := by
  apply ext_find?
  intro place
  by_cases hother : place = other
  · rw [hother, find?_erase_self, find?_insert_of_ne _ h, find?_erase_self]
  rw [find?_erase_of_ne _ hother]
  by_cases hkey : place = key
  · rw [hkey, find?_insert_self, find?_insert_self]
  · rw [find?_insert_of_ne _ hkey, find?_insert_of_ne _ hkey, find?_erase_of_ne _ hother]

end SortedMap

namespace Book

attribute [ext] Book

variable {b : Book} {account account' : AccountId} {m n : Nat}

theorem balances_collect (b : Book) (origin : Origin) (account : AccountId) (n : Nat) :
    (b.collect origin account n).balances = b.balances.adjust 0 account (· - n) := by
  cases origin <;> rfl

theorem balances_refund (b : Book) (origin : Origin) (account : AccountId) (n : Nat) :
    (b.refund origin account n).balances = b.balances.adjust 0 account (· + n) := by
  cases origin <;> rfl

/-- Two collections commute where the book covers both of them in either order. -/
theorem Balanced.collect_comm (h : b.Balanced) (origin origin' : Origin)
    (hfirst : m ≤ b.balance account)
    (hthen : n ≤ (b.collect origin account m).balance account')
    (hfirst' : n ≤ b.balance account')
    (hthen' : m ≤ (b.collect origin' account' n).balance account) :
    (b.collect origin account m).collect origin' account' n =
      (b.collect origin' account' n).collect origin account m := by
  apply Book.ext
  · simp only [balances_collect]
    exact SortedMap.adjust_comm _ _ fun _ => Nat.sub_right_comm _ _ _
  · cases origin with
    | native =>
        cases origin' with
        | native => exact Nat.add_right_comm _ _ _
        | bridged => rfl
    | bridged => cases origin' <;> rfl
  · cases origin with
    | native => cases origin' <;> rfl
    | bridged =>
        cases origin' with
        | native => rfl
        | bridged =>
            have hburned := h.supply_collect hfirst
            have hburned' := h.supply_collect hfirst'
            have hboth := (h.collect .bridged hfirst).supply_collect hthen
            have hboth' := (h.collect .bridged hfirst').supply_collect hthen'
            omega

/-- A collection and a refund commute where the book covers each of them without the other. -/
theorem Balanced.collect_refund_comm (h : b.Balanced) (origin origin' : Origin)
    (hpaid : m ≤ b.balance account) (hcustody : origin' = .native → n ≤ b.custody) :
    (b.collect origin account m).refund origin' account' n =
      (b.refund origin' account' n).collect origin account m := by
  apply Book.ext
  · rw [balances_refund, balances_collect, balances_collect, balances_refund]
    apply SortedMap.adjust_comm
    intro _
    exact (Nat.sub_add_comm hpaid).symm
  · cases origin with
    | native =>
        cases origin' with
        | native => exact Nat.sub_add_comm (hcustody rfl)
        | bridged => rfl
    | bridged => cases origin' <;> rfl
  · cases origin with
    | native => cases origin' <;> rfl
    | bridged =>
        cases origin' with
        | native => rfl
        | bridged =>
            have hsupply := h.le_supply hpaid
            have hsupply' : m ≤ b.supply + n := Nat.le_add_right_of_le hsupply
            change (if m ≤ b.supply then b.supply - m else b.supply) + n =
              if m ≤ b.supply + n then b.supply + n - m else b.supply + n
            rw [if_pos hsupply, if_pos hsupply']
            exact (Nat.sub_add_comm hsupply).symm

end Book

namespace Transfer

/-- The transfer under another id. -/
def renumber (f : UInt64 → UInt64) (t : Transfer) : Transfer := { t with id := f t.id }

theorem renumber_eq_self {f : UInt64 → UInt64} {t : Transfer} (h : f t.id = t.id) :
    t.renumber f = t := by
  rw [renumber, h]

end Transfer

theorem Withdrawal.renumber_toTransfer (w : Withdrawal) (id : UInt64)
    (destination contract : Address) (f : UInt64 → UInt64) :
    (w.toTransfer id destination contract).renumber f = w.toTransfer (f id) destination contract :=
  rfl

/-- A withdrawal with a higher fee than the sample has. -/
def Sample.generous : Withdrawal := { Sample.withdrawal with fee := ⟨Denom.voucher contract, 9⟩ }

namespace Bridge

section

variable {s s₁ s₂ s₁₂ s₂₁ : Bridge} {first : UInt64} {w₁ w₂ : Withdrawal}
  {id₁ id₂ id₁' id₂' : UInt64} {destination₁ destination₂ : Address} {origin₁ origin₂ : Origin}
  {contract₁ contract₂ : Address} {next₁ next₂ next₁' next₂' : UInt64}
  (h₁ : s.Submits w₁ id₁ s₁ destination₁ origin₁ contract₁ next₁)
  (h₁₂ : s₁.Submits w₂ id₂ s₁₂ destination₂ origin₂ contract₂ next₂)
  (h₂ : s.Submits w₂ id₂' s₂ destination₂ origin₂ contract₂ next₂')
  (h₂₁ : s₂.Submits w₁ id₁' s₂₁ destination₁ origin₁ contract₁ next₁')

include h₁ h₁₂ h₂ h₂₁

/-- The ids go with the order and not with the withdrawals. -/
theorem Submits.ids_comm : id₁ = id₂' ∧ id₂ = id₁' := by
  have hnext : next₁ = next₂' := Except.ok.inj (h₁.available.symm.trans h₂.available)
  constructor
  · rw [h₁.fresh, h₂.fresh]
  · rw [h₁₂.fresh, h₂₁.fresh, h₁.ids_eq, h₂.ids_eq, hnext]

theorem Submits.ledger_comm (hbalanced : s.ledger.Balanced) : s₁₂.ledger = s₂₁.ledger := by
  rw [h₁₂.ledger, h₂₁.ledger, h₁.ledger, h₂.ledger]
  refine s.ledger.update_comm (f := fun b => b.collect origin₁ w₁.sender w₁.total.amount)
    (g := fun b => b.collect origin₂ w₂.sender w₂.total.amount) fun hdenom => ?_
  have hthen := h₁₂.covered
  have hfirst' := h₂.covered
  have hthen' := h₂₁.covered
  rw [h₁.ledger, ← hdenom, Ledger.balance, Ledger.book_setBook_self] at hthen
  rw [← hdenom] at hfirst'
  rw [h₂.ledger, hdenom, Ledger.balance, Ledger.book_setBook_self, ← hdenom] at hthen'
  exact (hbalanced w₁.amount.denom).collect_comm origin₁ origin₂ h₁.covered hthen hfirst' hthen'

theorem Submits.walk_comm (hsound : s.store.Sound first) (hsound₁ : s₁.store.Sound first)
    (hsound₂ : s₂.store.Sound first) :
    (s₂₁.pool.walk .all).Perm
      ((s₁₂.pool.walk .all).map (Transfer.renumber (Equiv.swap id₁ id₂))) := by
  obtain ⟨rfl, rfl⟩ := Submits.ids_comm h₁ h₁₂ h₂ h₂₁
  have hlt : id₁ < id₂ := by
    rw [h₁.fresh, h₁₂.fresh]
    exact h₁.peek_lt
  -- What was pending before has smaller ids than either of the two new ones.
  have hkept : (s.pool.walk .all).map (Transfer.renumber (Equiv.swap id₁ id₂)) =
      (s.pool.walk .all).map id := by
    apply List.map_congr_left
    intro t ht
    have hissued : t.id < id₁ := by
      rw [h₁.fresh]
      exact (hsound.issued t ht).2
    exact Transfer.renumber_eq_self (Equiv.swap_apply_of_ne_of_ne (UInt64.ne_of_lt hissued)
      (UInt64.ne_of_lt (UInt64.lt_trans hissued hlt)))
  have hwalk := (h₁₂.walk_perm hsound₁).trans ((h₁.walk_perm hsound).cons _)
  have hwalk' := (h₂₁.walk_perm hsound₂).trans ((h₂.walk_perm hsound).cons _)
  have hmap := hwalk.map (Transfer.renumber (Equiv.swap id₁ id₂))
  rw [List.map_cons, List.map_cons, hkept, List.map_id, Withdrawal.renumber_toTransfer,
    Withdrawal.renumber_toTransfer, Equiv.swap_apply_left, Equiv.swap_apply_right] at hmap
  exact (hwalk'.trans (List.Perm.swap _ _ _)).trans hmap.symm

end

section

variable {s s₁ s₂ s₁₂ s₂₁ : Bridge} {first : UInt64} {w : Withdrawal} {t : Transfer}
  {id id' : UInt64} {destination : Address} {origin origin' : Origin} {contract : Address}
  {next next' : UInt64} {d : Denom}
  (h₁ : s.Submits w id s₁ destination origin contract next)
  (h₁₂ : s₁.Cancels t s₁₂ origin' d)
  (h₂ : s.Cancels t s₂ origin' d)
  (h₂₁ : s₂.Submits w id' s₂₁ destination origin contract next')

include h₁ h₂ h₂₁

theorem Cancels.id_comm : id = id' := by
  rw [h₁.fresh, h₂₁.fresh, h₂.ids]

include h₁₂

theorem Cancels.ledger_comm (hbalanced : s.ledger.Balanced) : s₁₂.ledger = s₂₁.ledger := by
  rw [h₁₂.ledger, h₂₁.ledger, h₁.ledger, h₂.ledger]
  refine s.ledger.update_comm (f := fun b => b.collect origin w.sender w.total.amount)
    (g := fun b => b.refund origin' t.sender t.value) fun hdenom => ?_
  have hcustody := h₂.covered
  rw [← hdenom] at hcustody
  exact (hbalanced w.amount.denom).collect_refund_comm origin origin' h₁.covered hcustody

theorem Cancels.store_comm (hsound : s.store.Sound first) : s₁₂.store = s₂₁.store := by
  obtain rfl := Cancels.id_comm h₁ h₂ h₂₁
  have hnext : s.ids.successor = .ok next' := by
    rw [← h₂.ids]
    exact h₂₁.available
  have hne : t.id ≠ id := by
    rw [h₁.fresh]
    exact hsound.peek_fresh h₂.pending
  have hplace : (⟨t.fee.contract, ⟨t.fee.amount, t.id⟩⟩ : Place) ≠
      ⟨contract, (w.toTransfer id destination contract).key⟩ := by
    intro heq
    exact hne (congrArg (fun place => place.key.id) heq)
  have hpool : s₁₂.pool = s₂.pool.place contract (w.toTransfer id destination contract) := by
    apply Pool.flat_injective
    rw [Pool.flat_remove h₁₂.removed, h₁.pool_eq, Pool.flat_place, Pool.flat_place,
      Pool.flat_remove h₂.removed, SortedMap.erase_insert_of_ne _ hplace]
  rw [h₂₁.store, State.store, hpool, h₁₂.ids, h₁.ids_eq,
    Except.ok.inj (h₁.available.symm.trans hnext)]

end

/-- What a denomination resolves to and where a withdrawal goes depends on nothing that a request
changes. -/
theorem Submits.same_resolution {s r s' r' : Bridge} {env : Env} {w : Withdrawal} {id id' : UInt64}
    (hsubmit : (submit env w).runFrom s = (.ok id, s'))
    (hsubmit' : (submit env w).runFrom r = (.ok id', r')) (hregistry : r.registry = s.registry) :
    ∃ destination origin contract next next',
      s.Submits w id s' destination origin contract next ∧
        r.Submits w id' r' destination origin contract next' := by
  obtain ⟨destination, origin, contract, next, haccepted, h⟩ := exists_accepted_submits hsubmit
  obtain ⟨destination', origin', contract', next', haccepted', h'⟩ :=
    exists_accepted_submits hsubmit'
  obtain ⟨rfl, _⟩ := Prod.mk.inj (Except.ok.inj (haccepted.symm.trans haccepted'))
  have hresolved := h'.resolved
  rw [hregistry, h.resolved] at hresolved
  obtain ⟨rfl, rfl⟩ := Prod.mk.inj (Except.ok.inj hresolved)
  exact ⟨destination, origin, contract, next, next', h, h'⟩

/-- A cancellation takes out the same transfer and pays it back in the same denomination, whatever
was recorded in between. -/
theorem Cancels.same_resolution {s r s' r' : Bridge} {first : UInt64} {env : Env} {id : UInt64}
    {requester : AccountId} (hsound : s.store.Sound first)
    (hleads : Store.Leads s.store r.store)
    (hcancel : (cancel env id requester).runFrom s = (.ok (), s'))
    (hcancel' : (cancel env id requester).runFrom r = (.ok (), r'))
    (hregistry : r.registry = s.registry) :
    ∃ t origin d, s.Cancels t s' origin d ∧ r.Cancels t r' origin d := by
  obtain ⟨t, origin, d, hid, _, h⟩ := exists_cancels hsound hcancel
  obtain ⟨t', origin', d', hid', _, h'⟩ := exists_cancels (hsound.leads hleads) hcancel'
  obtain rfl := hsound.eq_of_leads hleads h.pending h'.pending (hid'.trans hid.symm)
  have hresolved := h'.resolved
  rw [hregistry, h.resolved] at hresolved
  obtain ⟨rfl, rfl⟩ := Prod.mk.inj hresolved
  exact ⟨t', origin, d, h, h'⟩

/-- Requests that succeed in both orders commute.  Two submissions leave the same bank, the same
pending transfers up to the exchange of the two new ids, and the same fees of every next batch.  A
submission and a cancellation leave the same bank and the same store, and the submission has the
same id. -/
theorem requests_commute {s : Bridge} {ids : IdCounter} (hbuilt : Store.Leads ⟨∅, ids⟩ s.store)
    (hbalanced : s.ledger.Balanced) :
    (∀ (env₁ env₂ : Env) (w₁ w₂ : Withdrawal) (id₁ id₂ id₁' id₂' : UInt64)
        (s₁ s₂ s₁₂ s₂₁ : Bridge),
      (submit env₁ w₁).runFrom s = (.ok id₁, s₁) →
      (submit env₂ w₂).runFrom s₁ = (.ok id₂, s₁₂) →
      (submit env₂ w₂).runFrom s = (.ok id₂', s₂) →
      (submit env₁ w₁).runFrom s₂ = (.ok id₁', s₂₁) →
      (id₁ = id₂' ∧ id₂ = id₁') ∧ s₁₂.ledger = s₂₁.ledger ∧
        (s₂₁.pool.walk .all).Perm
          ((s₁₂.pool.walk .all).map (Transfer.renumber (Equiv.swap id₁ id₂))) ∧
        ∀ cap, s₁₂.pool.feeSummaries cap = s₂₁.pool.feeSummaries cap ∧
          ∀ contract, s₁₂.pool.feeSummary contract cap = s₂₁.pool.feeSummary contract cap) ∧
    ∀ (env env' : Env) (w : Withdrawal) (id new new' : UInt64) (requester : AccountId)
        (s₁ s₂ s₁₂ s₂₁ : Bridge),
      (submit env w).runFrom s = (.ok new, s₁) →
      (cancel env' id requester).runFrom s₁ = (.ok (), s₁₂) →
      (cancel env' id requester).runFrom s = (.ok (), s₂) →
      (submit env w).runFrom s₂ = (.ok new', s₂₁) →
      new = new' ∧ s₁₂.store = s₂₁.store ∧ s₁₂.ledger = s₂₁.ledger := by
  have hsound : s.store.Sound ids.peek := (Store.sound_empty ids).leads hbuilt
  constructor
  · intro env₁ env₂ w₁ w₂ id₁ id₂ id₁' id₂' s₁ s₂ s₁₂ s₂₁ hrun₁ hrun₁₂ hrun₂ hrun₂₁
    obtain ⟨_, _, _, _, _, h₁, h₂₁⟩ :=
      Submits.same_resolution hrun₁ hrun₂₁ (registry_of_submit hrun₂)
    obtain ⟨_, _, _, _, _, h₂, h₁₂⟩ :=
      Submits.same_resolution hrun₂ hrun₁₂ (registry_of_submit hrun₁)
    have hsound₁ := hsound.leads (Store.leads_of_submit hrun₁)
    have hsound₂ := hsound.leads (Store.leads_of_submit hrun₂)
    have hfiled₁₂ : s₁₂.pool.Filed := (hsound₁.leads (Store.leads_of_submit hrun₁₂)).filed
    have hfiled₂₁ : s₂₁.pool.Filed := (hsound₂.leads (Store.leads_of_submit hrun₂₁)).filed
    have hwalk := Submits.walk_comm h₁ h₁₂ h₂ h₂₁ hsound hsound₁ hsound₂
    have hfees : s₁₂.pool.SameFees s₂₁.pool := by
      have hmap := hwalk.symm.map Transfer.fee
      rwa [List.map_map] at hmap
    refine ⟨Submits.ids_comm h₁ h₁₂ h₂ h₂₁, Submits.ledger_comm h₁ h₁₂ h₂ h₂₁ hbalanced, hwalk,
      fun cap => ⟨hfees.feeSummaries hfiled₁₂ hfiled₂₁ cap, fun contract => ?_⟩⟩
    exact hfees.feeSummary hfiled₁₂ hfiled₂₁ contract cap
  · intro env env' w id new new' requester s₁ s₂ s₁₂ s₂₁ hrun₁ hrun₁₂ hrun₂ hrun₂₁
    obtain ⟨_, _, _, _, _, h₁, h₂₁⟩ :=
      Submits.same_resolution hrun₁ hrun₂₁ (registry_of_cancel hrun₂)
    obtain ⟨_, _, _, h₂, h₁₂⟩ := Cancels.same_resolution hsound (Store.leads_of_submit hrun₁)
      hrun₂ hrun₁₂ (registry_of_submit hrun₁)
    exact ⟨Cancels.id_comm h₁ h₂ h₂₁, Cancels.store_comm h₁ h₁₂ h₂ h₂₁ hsound,
      Cancels.ledger_comm h₁ h₁₂ h₂ h₂₁ hbalanced⟩

open Sample in
/-- While the sample withdrawal is pending, two more are submitted, and one is submitted while the
pending one is cancelled. -/
theorem requests_commute_of_sample :
    Store.Leads ⟨∅, {}⟩ pending.store ∧ pending.ledger.Balanced ∧
      (∃ s₁ s₂ s₁₂ s₂₁, (submit env withdrawal).runFrom pending = (.ok 2, s₁) ∧
        (submit env generous).runFrom s₁ = (.ok 3, s₁₂) ∧
        (submit env generous).runFrom pending = (.ok 2, s₂) ∧
        (submit env withdrawal).runFrom s₂ = (.ok 3, s₂₁) ∧
        s₁₂.ledger = s₂₁.ledger ∧
        (s₂₁.pool.walk .all).Perm
          ((s₁₂.pool.walk .all).map (Transfer.renumber (Equiv.swap 2 3)))) ∧
      ∃ s₁ s₂ s₁₂ s₂₁, (submit env generous).runFrom pending = (.ok 2, s₁) ∧
        (cancel env 1 alice).runFrom s₁ = (.ok (), s₁₂) ∧
        (cancel env 1 alice).runFrom pending = (.ok (), s₂) ∧
        (submit env generous).runFrom s₂ = (.ok 2, s₂₁) ∧
        s₁₂.store = s₂₁.store ∧ s₁₂.ledger = s₂₁.ledger := by
  have hpending : (submit env withdrawal).runFrom funded = (.ok 1, pending) := rfl
  have hbuilt : Store.Leads ⟨∅, {}⟩ pending.store := Store.leads_of_submit hpending
  have hbalanced : pending.ledger.Balanced :=
    Ledger.keeps_balanced.submit (Ledger.balanced_empty.fund alice _) hpending
  have htwice : ∃ s₁ s₂ s₁₂ s₂₁ : Bridge,
      (submit env withdrawal).runFrom pending = (.ok 2, s₁) ∧
        (submit env generous).runFrom s₁ = (.ok 3, s₁₂) ∧
        (submit env generous).runFrom pending = (.ok 2, s₂) ∧
        (submit env withdrawal).runFrom s₂ = (.ok 3, s₂₁) :=
    ⟨_, _, _, _, rfl, rfl, rfl, rfl⟩
  have hmeanwhile : ∃ s₁ s₂ s₁₂ s₂₁ : Bridge,
      (submit env generous).runFrom pending = (.ok 2, s₁) ∧
        (cancel env 1 alice).runFrom s₁ = (.ok (), s₁₂) ∧
        (cancel env 1 alice).runFrom pending = (.ok (), s₂) ∧
        (submit env generous).runFrom s₂ = (.ok 2, s₂₁) :=
    ⟨_, _, _, _, rfl, rfl, rfl, rfl⟩
  obtain ⟨hsubmits, hcancels⟩ := requests_commute hbuilt hbalanced
  refine ⟨hbuilt, hbalanced, ?_, ?_⟩
  · obtain ⟨s₁, s₂, s₁₂, s₂₁, h₁, h₁₂, h₂, h₂₁⟩ := htwice
    obtain ⟨_, hledger, hwalk, _⟩ := hsubmits _ _ _ _ _ _ _ _ _ _ _ _ h₁ h₁₂ h₂ h₂₁
    exact ⟨s₁, s₂, s₁₂, s₂₁, h₁, h₁₂, h₂, h₂₁, hledger, hwalk⟩
  · obtain ⟨s₁, s₂, s₁₂, s₂₁, h₁, h₁₂, h₂, h₂₁⟩ := hmeanwhile
    obtain ⟨_, hstore, hledger⟩ := hcancels _ _ _ _ _ _ _ _ _ _ _ h₁ h₁₂ h₂ h₂₁
    exact ⟨s₁, s₂, s₁₂, s₂₁, h₁, h₁₂, h₂, h₂₁, hstore, hledger⟩

end Bridge

end WithdrawalPool
