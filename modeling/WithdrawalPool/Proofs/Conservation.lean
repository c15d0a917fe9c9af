/-
No coin of the bank is lost or made up.  The supply of a denomination is what accounts and custody
hold together, after every sequence of operations and wherever a transition stopped.
-/
import Mathlib.Algebra.BigOperators.Finprod
import WithdrawalPool.Proofs.Atomicity

namespace WithdrawalPool

universe u

namespace Tally

variable {κ : Type u} [Ord κ] [Std.LawfulEqOrd κ]

theorem amount_of_mem {t : Tally κ} {e : κ × Nat} (he : e ∈ t.entries) : t.amount e.1 = e.2 := by
  have hfind : t.find? e.1 = some e.2 := SortedMap.find?_eq_some_iff.2 he
  rw [amount, hfind, Option.getD_some]

theorem mem_keys_of_amount_ne_zero {t : Tally κ} {key : κ} (h : t.amount key ≠ 0) :
    key ∈ t.keys := by
  cases hfind : t.find? key with
  | none =>
      rw [amount, hfind] at h
      exact absurd rfl h
  | some n => exact List.mem_map_of_mem (SortedMap.find?_eq_some_iff.1 hfind)

theorem finite_support_amount (t : Tally κ) : (Function.support t.amount).Finite :=
  t.keys.finite_toSet.subset fun _ h => mem_keys_of_amount_ne_zero h

theorem total_eq_finsum [DecidableEq κ] (t : Tally κ) : t.total = ∑ᶠ key, t.amount key := by
  have hvalues : t.keys.map t.amount = t.values := by
    rw [SortedMap.keys, SortedMap.values, List.map_map]
    exact List.map_congr_left fun _ he => amount_of_mem he
  rw [finsum_eq_sum_of_support_subset (s := t.keys.toFinset),
    List.sum_toFinset _ (SortedMap.nodup_keys t), hvalues]
  · rfl
  · intro key hkey
    exact List.mem_toFinset.2 (mem_keys_of_amount_ne_zero hkey)

end Tally

namespace Book

variable {b b' : Book} {account : AccountId} {n : Nat}

theorem Balanced.lock (h : b.Balanced) (hlock : b.lock account n = .ok b') : b'.Balanced := by
  obtain ⟨hle, rfl⟩ := lock_eq_ok_iff.1 hlock
  exact h.collect .native hle

theorem Balanced.unlock (h : b.Balanced) (hunlock : b.unlock account n = .ok b') :
    b'.Balanced := by
  obtain ⟨hle, rfl⟩ := unlock_eq_ok_iff.1 hunlock
  exact h.refund .native account fun _ => hle

/-- The supply covers what custody holds, so it follows every burn. -/
theorem Balanced.supply_burn (h : b.Balanced) (hburn : b.burn n = .ok b') :
    b'.custody + n = b.custody ∧ b'.supply + n = b.supply ∧ b'.balances = b.balances := by
  obtain ⟨hle, rfl⟩ := burn_eq_ok_iff.1 hburn
  rw [Balanced] at h
  have hcovered : n ≤ b.supply := by omega
  refine ⟨Nat.sub_add_cancel hle, ?_, rfl⟩
  rw [if_pos hcovered]
  exact Nat.sub_add_cancel hcovered

theorem Balanced.burn (h : b.Balanced) (hburn : b.burn n = .ok b') : b'.Balanced := by
  obtain ⟨hcustody, hsupply, hbalances⟩ := h.supply_burn hburn
  rw [Balanced] at h ⊢
  rw [hbalances]
  omega

theorem Balanced.mint (h : b.Balanced) (n : Nat) : (b.mint n).Balanced := by
  have hcustody : (b.mint n).custody = b.custody + n := rfl
  have hsupply : (b.mint n).supply = b.supply + n := rfl
  have hbalances : (b.mint n).balances = b.balances := rfl
  rw [Balanced] at h ⊢
  rw [hbalances]
  omega

end Book

/-- Every call keeps a property of the keeper, whether it is answered or refused. -/
structure Custody.Keeps {L : Type} [Custody L] (p : L → Prop) : Prop where
  lock {account : AccountId} {coin : Coin} {l l' : L} {result : Except CustodyError Unit} :
    p l → (Custody.lock account coin).run l = (result, l') → p l'
  unlock {account : AccountId} {coin : Coin} {l l' : L} {result : Except CustodyError Unit} :
    p l → (Custody.unlock account coin).run l = (result, l') → p l'
  burn {coin : Coin} {l l' : L} {result : Except CustodyError Unit} :
    p l → (Custody.burn coin).run l = (result, l') → p l'
  mint {coin : Coin} {l l' : L} {result : Except CustodyError Unit} :
    p l → (Custody.mint coin).run l = (result, l') → p l'

namespace Custody

section

variable {L : Type} [Custody L] {p : L → Prop} {account : AccountId} {coin : Coin}
  {origin : Origin} {l l' : L}

theorem Keeps.collects (h : Keeps p) (hp : p l) (hcollects : Collects account coin l origin l') :
    p l' := by
  cases hcollects with
  | native hlock => exact h.lock hp hlock
  | bridged hlock hburn => exact h.burn (h.lock hp hlock) hburn

theorem Keeps.refunds (h : Keeps p) (hp : p l) (hrefunds : Refunds account coin l origin l') :
    p l' := by
  cases hrefunds with
  | native hunlock => exact h.unlock hp hunlock
  | bridged hmint hunlock => exact h.unlock (h.mint hp hmint) hunlock

theorem Keeps.refundRefused (h : Keeps p) (hp : p l) {e : CustodyError}
    (hrefused : RefundRefused account coin l origin e l') : p l' := by
  cases hrefused with
  | native hunlock => exact h.unlock hp hunlock
  | mint hmint => exact h.mint hp hmint
  | unlock hmint hunlock => exact h.unlock (h.mint hp hmint) hunlock

variable {R : Type} [Resolver R] {env : Env} {s s' : State L R}

/-- A submission keeps what every call of it keeps, wherever it stops. -/
theorem Keeps.submit (h : Keeps p) (hp : p s.ledger) {w : Withdrawal}
    {result : Except PoolError UInt64}
    (hrun : (WithdrawalPool.submit env w).runFrom s = (result, s')) : p s'.ledger := by
  cases submitEffect_of_runFrom hrun with
  | refused => exact hp
  | unresolved => exact hp
  | exhausted => exact hp
  | notLocked _ hlock => exact h.lock hp hlock
  | notBurned _ hlock hburn => exact h.burn (h.lock hp hlock) hburn
  | duplicate _ hcollects => exact h.collects hp hcollects
  | recorded _ hcollects => exact h.collects hp hcollects

/-- A cancellation keeps what every call of it keeps, wherever it stops. -/
theorem Keeps.cancel (h : Keeps p) (hp : p s.ledger) {id : UInt64} {requester : AccountId}
    {result : Except PoolError Unit}
    (hrun : (WithdrawalPool.cancel env id requester).runFrom s = (result, s')) :
    p s'.ledger := by
  cases cancelEffect_of_runFrom hrun with
  | refused => exact hp
  | notFound => exact hp
  | senderMissing => exact hp
  | unauthorized => exact hp
  | inconsistent => exact hp
  | unresolved => exact hp
  | misfiled => exact hp
  | refundRefused _ _ hrefused => exact h.refundRefused hp hrefused
  | refunded _ _ hrefunds => exact h.refunds hp hrefunds

end

end Custody

namespace WithFaults

/-- A call is stopped by a fault, and then the collaborator does not change, or it is made. -/
theorem holds_of_run_guard {ι α ε β : Type} [DecidableEq ι] {call : ι} {fault : ε}
    {action : ExceptT ε (StateM α) β} {l l' : WithFaults ι α} {result : Except ε β} {p : α → Prop}
    (hrun : (guard call fault action).run l = (result, l')) (hp : p l.inner)
    (hmade : action.run l.inner = (result, l'.inner) → p l'.inner) : p l'.inner := by
  cases result with
  | ok b => exact hmade (run_guard_eq_ok hrun)
  | error e =>
      rcases run_guard_eq_error hrun with hstopped | hrefused
      · rwa [hstopped]
      · exact hmade hrefused

theorem keeps_inner {L : Type} [Custody L] {p : L → Prop} (h : Custody.Keeps p) :
    Custody.Keeps fun l : WithFaults CustodyCall L => p l.inner where
  lock hp hrun := holds_of_run_guard hrun hp (h.lock hp)
  unlock hp hrun := holds_of_run_guard hrun hp (h.unlock hp)
  burn hp hrun := holds_of_run_guard hrun hp (h.burn hp)
  mint hp hrun := holds_of_run_guard hrun hp (h.mint hp)

end WithFaults

namespace Ledger

/-- Every coin of every denomination is in custody or in an account. -/
def Balanced (l : Ledger) : Prop := ∀ d, (l.book d).Balanced

variable {l l' : Ledger}

theorem balanced_empty : (∅ : Ledger).Balanced := fun _ => Book.balanced_empty

theorem Balanced.setBook (h : l.Balanced) {d : Denom} {b : Book} (hb : b.Balanced) :
    (l.setBook d b).Balanced :=
  forall_book_setBook (p := fun _ b => b.Balanced) hb fun other _ => h other

theorem Balanced.fund (h : l.Balanced) (account : AccountId) (coin : Coin) :
    (l.fund account coin).Balanced :=
  h.setBook ((h coin.denom).fund account coin.amount)

theorem Balanced.attempt (h : l.Balanced) {change : Ledger → Except CustodyError Ledger}
    {result : Except CustodyError Unit} (hrun : (attempt change).run l = (result, l'))
    (hchange : change l = .ok l' → l'.Balanced) : l'.Balanced := by
  cases result with
  | ok _ => exact hchange (run_attempt_eq_ok hrun)
  | error e => rwa [run_attempt_eq_error hrun]

theorem keeps_balanced : Custody.Keeps Balanced where
  lock h hrun := by
    refine h.attempt hrun fun hlock => ?_
    obtain ⟨b, hb, rfl⟩ := lock_eq_ok hlock
    exact h.setBook ((h _).lock hb)
  unlock h hrun := by
    refine h.attempt hrun fun hunlock => ?_
    obtain ⟨b, hb, rfl⟩ := unlock_eq_ok hunlock
    exact h.setBook ((h _).unlock hb)
  burn h hrun := by
    refine h.attempt hrun fun hburn => ?_
    obtain ⟨b, hb, rfl⟩ := burn_eq_ok hburn
    exact h.setBook ((h _).burn hb)
  mint h hrun := by
    refine h.attempt hrun fun hmint => ?_
    rw [mint_eq_ok hmint]
    exact h.setBook ((h _).mint _)

/-- What can happen to a bank: one of its own operations, or a transition of a pool that keeps its
coins there, with any registry.  Some of the calls of a transition may fail before they reach the
bank. -/
inductive Operation (l : Ledger) : Ledger → Prop
  | fund (account : AccountId) (coin : Coin) : Operation l (l.fund account coin)
  | switch (switches : SupplySwitches) : Operation l { l with switches := switches }
  | lock (account : AccountId) (coin : Coin) :
      Operation l ((Custody.lock account coin).run l).2
  | unlock (account : AccountId) (coin : Coin) :
      Operation l ((Custody.unlock account coin).run l).2
  | burn (coin : Coin) : Operation l ((Custody.burn coin).run l).2
  | mint (coin : Coin) : Operation l ((Custody.mint coin).run l).2
  | submit {R : Type} [Resolver R] (env : Env) (w : Withdrawal) (s : State Ledger R)
      (hs : s.ledger = l) : Operation l ((WithdrawalPool.submit env w).runFrom s).2.ledger
  | cancel {R : Type} [Resolver R] (env : Env) (id : UInt64) (requester : AccountId)
      (s : State Ledger R) (hs : s.ledger = l) :
      Operation l ((WithdrawalPool.cancel env id requester).runFrom s).2.ledger
  | submitWithFaults {R : Type} [Resolver R] (env : Env) (w : Withdrawal)
      (s : State (WithFaults CustodyCall Ledger) R) (hs : s.ledger.inner = l) :
      Operation l ((WithdrawalPool.submit env w).runFrom s).2.ledger.inner
  | cancelWithFaults {R : Type} [Resolver R] (env : Env) (id : UInt64) (requester : AccountId)
      (s : State (WithFaults CustodyCall Ledger) R) (hs : s.ledger.inner = l) :
      Operation l ((WithdrawalPool.cancel env id requester).runFrom s).2.ledger.inner

theorem Balanced.operation (h : l.Balanced) (hoperation : Operation l l') : l'.Balanced := by
  have hfaulty := WithFaults.keeps_inner keeps_balanced
  cases hoperation with
  | fund account coin => exact h.fund account coin
  | switch => exact h
  | lock => exact keeps_balanced.lock h rfl
  | unlock => exact keeps_balanced.unlock h rfl
  | burn => exact keeps_balanced.burn h rfl
  | mint => exact keeps_balanced.mint h rfl
  | submit env w s hs =>
      subst hs
      exact keeps_balanced.submit h rfl
  | cancel env id requester s hs =>
      subst hs
      exact keeps_balanced.cancel h rfl
  | submitWithFaults env w s hs =>
      subst hs
      exact hfaulty.submit h rfl
  | cancelWithFaults env id requester s hs =>
      subst hs
      exact hfaulty.cancel h rfl

theorem Balanced.operations (h : l.Balanced) (hrun : Relation.ReflTransGen Operation l l') :
    l'.Balanced := by
  induction hrun with
  | refl => exact h
  | tail _ hoperation ih => exact ih.operation hoperation

/-- Whatever happened to the bank, the supply of a denomination is what custody holds of it and
the accounts hold, finitely many of them.  A burn takes from custody and from the supply alike. -/
theorem supply_conserved (hrun : Relation.ReflTransGen Operation ∅ l) :
    (∀ d, (Function.support fun account => l.balance account d).Finite ∧
        l.supply d = l.custody d + ∑ᶠ account, l.balance account d) ∧
      ∀ coin l', (Custody.burn coin).run l = (.ok (), l') →
        l'.custody coin.denom + coin.amount = l.custody coin.denom ∧
          l'.supply coin.denom + coin.amount = l.supply coin.denom := by
  have hbalanced := balanced_empty.operations hrun
  constructor
  · intro d
    have htotal : (l.book d).balances.total = ∑ᶠ account, l.balance account d :=
      Tally.total_eq_finsum _
    refine ⟨(l.book d).balances.finite_support_amount, ?_⟩
    rw [← htotal]
    exact hbalanced d
  · intro coin l' hburn
    obtain ⟨b, hb, rfl⟩ := burn_eq_ok (run_attempt_eq_ok hburn)
    obtain ⟨hcustody, hsupply, _⟩ := (hbalanced coin.denom).supply_burn hb
    rw [custody, supply, book_setBook_self]
    exact ⟨hcustody, hsupply⟩

open Sample in
/-- Vouchers are locked and a fault stops their burn, and then they are burned after all. -/
theorem supply_conserved_of_faulty :
    ∃ locked burned, Relation.ReflTransGen Operation ∅ locked ∧
      locked.custody (Denom.voucher contract) = 107 ∧
      (Custody.burn ⟨Denom.voucher contract, 107⟩).run locked = (.ok (), burned) ∧
      locked.supply (Denom.voucher contract) =
        107 + ∑ᶠ account, locked.balance account (Denom.voucher contract) ∧
      burned.supply (Denom.voucher contract) + 107 = locked.supply (Denom.voucher contract) := by
  have hfund : Operation ∅ funded.ledger := .fund alice ⟨Denom.voucher contract, 1000⟩
  have hsubmit : Operation funded.ledger _ := .submitWithFaults env withdrawal faulty rfl
  have hrun := (Relation.ReflTransGen.single hfund).tail hsubmit
  obtain ⟨hsupply, hburns⟩ := supply_conserved hrun
  have hcustody : ((submit env withdrawal).runFrom faulty).2.ledger.inner.custody
      (Denom.voucher contract) = 107 := by rfl
  have hburn : (Custody.burn ⟨Denom.voucher contract, 107⟩).run
      ((submit env withdrawal).runFrom faulty).2.ledger.inner =
    (.ok (), ((Custody.burn ⟨Denom.voucher contract, 107⟩).run
      ((submit env withdrawal).runFrom faulty).2.ledger.inner).2) := by rfl
  exact ⟨_, _, hrun, hcustody, hburn, hcustody ▸ (hsupply _).2, (hburns _ _ hburn).2⟩

end Ledger

end WithdrawalPool
