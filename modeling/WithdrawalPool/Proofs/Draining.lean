/-
Emptying the pool.  In a committed history every pending transfer can be cancelled by its sender,
and refunds may be made in any order, so all ways of emptying the pool leave the same bank.
-/
import WithdrawalPool.Proofs.Resolution
import WithdrawalPool.Proofs.Solvency

namespace WithdrawalPool

namespace Ledger

/-- Pays a transfer back to its sender, in what its contract carries. -/
def payBack (r : Registry) (l : Ledger) (t : Transfer) : Ledger :=
  l.setBook (r.denomOf t.contract).2
    ((l.book (r.denomOf t.contract).2).refund (r.denomOf t.contract).1 t.sender t.value)

theorem payBack_right_comm (r : Registry) (l : Ledger) (t u : Transfer) :
    (l.payBack r t).payBack r u = (l.payBack r u).payBack r t :=
  l.update_comm (f := fun b => b.refund (r.denomOf t.contract).1 t.sender t.value)
    (g := fun b => b.refund (r.denomOf u.contract).1 u.sender u.value)
    fun _ => Book.refund_right_comm _ _ _ _ _ _ _

theorem foldl_payBack_perm (r : Registry) (l : Ledger) {ts us : List Transfer}
    (h : ts.Perm us) : ts.foldl (payBack r) l = us.foldl (payBack r) l :=
  h.foldl_eq' (fun t _ u _ l => payBack_right_comm r l t u) l

theorem balance_payBack_self (r : Registry) (l : Ledger) (t : Transfer) :
    (l.payBack r t).balance t.sender (r.denomOf t.contract).2 =
      l.balance t.sender (r.denomOf t.contract).2 + t.value := by
  rw [payBack, balance, book_setBook_self, Book.balance_refund]
  rfl

theorem balance_payBack_of_ne {r : Registry} (l : Ledger) {t : Transfer} {account : AccountId}
    {d : Denom} (h : account = t.sender → d ≠ (r.denomOf t.contract).2) :
    (l.payBack r t).balance account d = l.balance account d := by
  by_cases hd : d = (r.denomOf t.contract).2
  · have haccount : account ≠ t.sender := fun heq => h heq hd
    rw [payBack, balance, hd, book_setBook_self, Book.balance_refund_of_ne _ _ haccount]
    rfl
  · rw [payBack, balance, book_setBook_of_ne _ hd]
    rfl

end Ledger

namespace Bridge

/-- Cancels transfers one after the other, each for its sender, as long as that succeeds. -/
def cancelEach {L R : Type} [Custody L] [Resolver R] (env : Env) :
    List Transfer → TransitionM L R Unit
  | [] => pure ()
  | t :: rest => do
    cancel env t.id t.sender
    cancelEach env rest

variable {log : List Deed} {s s' : Bridge} {d : Denom} {t : Transfer} {env : Env}

/-- Each account gains what its own transfers are worth. -/
theorem balance_foldl_payBack {r : Registry} {ts : List Transfer}
    (h : ∀ t ∈ ts, submittedIn log t.id = some (r.denomOf t.contract).2) (l : Ledger)
    (account : AccountId) (d : Denom) :
    (ts.foldl (Ledger.payBack r) l).balance account d =
      l.balance account d + valueIn log d (ts.filter fun t => t.sender = account) := by
  induction ts generalizing l with
  | nil => rfl
  | cons t rest ih =>
      have hsubmitted := h t List.mem_cons_self
      rw [List.foldl_cons, ih fun u hu => h u (List.mem_cons_of_mem _ hu)]
      by_cases haccount : t.sender = account
      · rw [List.filter_cons_of_pos (by simpa using haccount)]
        by_cases hd : (r.denomOf t.contract).2 = d
        · rw [hd] at hsubmitted
          rw [valueIn_cons_of_eq hsubmitted, ← haccount, ← hd, Ledger.balance_payBack_self,
            Nat.add_assoc]
        · have hne : submittedIn log t.id ≠ some d := by
            rw [hsubmitted]
            exact fun heq => hd (Option.some.inj heq)
          rw [valueIn_cons_of_ne hne, Ledger.balance_payBack_of_ne _ fun _ => Ne.symm hd]
      · rw [List.filter_cons_of_neg (by simpa using haccount),
          Ledger.balance_payBack_of_ne _ fun heq => absurd heq.symm haccount]

theorem Committed.linkedRegistry (h : Committed log s) : s.registry.Linked :=
  h.run.registry_induction Registry.linked_empty fun _ _ _ _ hr => hr.register

/-- Custody has the native coins of every pending transfer. -/
theorem Committed.covered (h : Committed log s) (ht : t ∈ s.pool)
    (hresolved : s.registry.denomOf t.contract = (.native, d)) :
    t.value ≤ s.ledger.custody d := by
  have hnative : ¬ d.IsVoucher := by
    rw [← h.soundRegistry.origin_of_denomOf hresolved]
    exact Origin.noConfusion
  have hsubmitted := h.accounted.resolved t ht
  have haccounts := (h.accounted.books d).accounts
  rw [hresolved] at hsubmitted
  rw [Book.Accounts, if_neg hnative] at haccounts
  rw [Ledger.custody, haccounts.1]
  exact le_valueIn (List.mem_append_left _ ht) hsubmitted

/-- The sender of a pending transfer may cancel it, if vouchers can be minted. -/
theorem Committed.exists_cancel (h : Committed log s) (ht : t ∈ s.pool)
    (hmint : s.ledger.switches.mint = true) (hcontext : env.context.isZero = false) :
    ∃ s', (cancel env t.id t.sender).runFrom s = (.ok (), s') := by
  have hvalid := h.linkedRegistry.valid_denomOf t.contract
  rcases hresolved : s.registry.denomOf t.contract with ⟨origin, d⟩
  rw [hresolved] at hvalid
  have hclaims := claims_of_mem h.soundStore hcontext ht hresolved
  obtain ⟨pool, hremove⟩ := h.soundStore.remove_of_mem ht
  have hcovered : origin = .native → t.value ≤ s.ledger.custody d := by
    rintro rfl
    exact h.covered ht hresolved
  obtain ⟨ledger, hrefund⟩ : ∃ ledger, Refunds t.sender ⟨d, t.value⟩ s.ledger origin ledger :=
    Ledger.refunds_of_covered hvalid (fun _ => hmint) hcovered
  exact ⟨_, runFrom_cancel_of_refunds hclaims hremove hrefund⟩

/-- Cancelling all pending transfers succeeds in any order, and pays each of them back. -/
theorem Committed.exists_cancelEach (h : Committed log s) {order : List Transfer}
    (hperm : order.Perm (s.pool.walk .all)) (hmint : s.ledger.switches.mint = true)
    (hcontext : env.context.isZero = false) :
    ∃ s', (cancelEach env order).runFrom s = (.ok (), s') ∧ s'.pool = ∅ ∧
      s'.ledger = order.foldl (Ledger.payBack s.registry) s.ledger := by
  induction order generalizing log s with
  | nil =>
      refine ⟨s, rfl, Pool.eq_empty_of_forall_not_mem fun t ht => ?_, rfl⟩
      have hmem := hperm.symm.subset ht
      contradiction
  | cons t rest ih =>
      have ht : t ∈ s.pool := hperm.subset List.mem_cons_self
      obtain ⟨s', hcancel⟩ := h.exists_cancel ht hmint hcontext
      have hnext : Committed (.cancelled t.id :: log) s' := h.done (.cancel hcancel) trivial
      obtain ⟨u, origin, d, hid, hsender, hcancels⟩ := exists_cancels h.soundStore hcancel
      obtain rfl : u = t := h.soundStore.eq_of_id hcancels.pending ht hid
      have hledger : s'.ledger = s.ledger.payBack s.registry u := by
        rw [hcancels.ledger, Ledger.payBack, hcancels.resolved]
      have hrest : rest.Perm (s'.pool.walk .all) :=
        (hperm.trans (Pool.walk_remove_perm hcancels.removed)).cons_inv
      have hswitch : s'.ledger.switches.mint = true := by
        rw [hledger]
        exact hmint
      obtain ⟨last, hrun, hempty, hlast⟩ := ih hnext hrest hswitch
      refine ⟨last, ?_, hempty, ?_⟩
      · rw [cancelEach, TransitionM.runFrom_bind, hcancel]
        exact hrun
      · rw [hlast, hledger, hcancels.registry, List.foldl_cons]

/-- After every committed history the pool can be emptied in any order of its transfers, each
cancelled by its sender.  The bank is the same afterwards, whatever the order, and each account
has gained what its own transfers are worth. -/
theorem drained_alike_in_any_order (h : Committed log s)
    (hmint : s.ledger.switches.mint = true) :
    ∃ drained : Ledger,
      (∀ (env : Env) (order : List Transfer), env.context.isZero = false →
        order.Perm (s.pool.walk .all) →
          ∃ s', (cancelEach env order).runFrom s = (.ok (), s') ∧ s'.pool = ∅ ∧
            s'.ledger = drained) ∧
        ∀ account d, drained.balance account d = s.ledger.balance account d +
          valueIn log d ((s.pool.walk .all).filter fun t => t.sender = account) := by
  refine ⟨(s.pool.walk .all).foldl (Ledger.payBack s.registry) s.ledger, ?_, ?_⟩
  · intro env order hcontext hperm
    obtain ⟨s', hrun, hempty, hledger⟩ := h.exists_cancelEach hperm hmint hcontext
    exact ⟨s', hrun, hempty, hledger.trans (Ledger.foldl_payBack_perm _ _ hperm)⟩
  · intro account d
    exact balance_foldl_payBack h.accounted.resolved s.ledger account d

open Sample in
/-- Atoms and vouchers are pending, and the transfer that a walk meets last is cancelled first. -/
theorem drained_alike_of_sample :
    ∃ s', (cancelEach Sample.env ((mixedOn Address.zero).pool.walk .all).reverse).runFrom
        (mixedOn Address.zero) = (.ok (), s') ∧ s'.pool = ∅ ∧
      s'.ledger.balance alice (Denom.voucher contract) = 1000 ∧
      s'.ledger.balance bob "uatom" = 1000 := by
  have hmint : (mixedOn Address.zero).ledger.switches.mint = true := by decide +kernel
  obtain ⟨drained, hcancels, hgained⟩ := drained_alike_in_any_order committed_sample hmint
  obtain ⟨s', hrun, hempty, rfl⟩ :=
    hcancels Sample.env ((mixedOn Address.zero).pool.walk .all).reverse (by rfl)
      (List.reverse_perm _)
  refine ⟨s', hrun, hempty, ?_⟩
  rw [hgained, hgained]
  decide +kernel

end Bridge

end WithdrawalPool
