/-
Where the coins are.  While no contract serves native coins and vouchers at once, custody holds
the native coins of all transfers that were not paid back, and the vouchers of such transfers are
gone from the supply.
-/
import WithdrawalPool.Proofs.Accounting

namespace WithdrawalPool

namespace Bridge

/-- A deed leaves each contract to one kind of asset.  Vouchers are submitted only while their
contract is not registered, and a contract is registered only while none of its vouchers are
pending. -/
def Apart (log : List Deed) (s : Bridge) : Deed → Prop
  | .submitted _ d => ∀ contract, d = Denom.voucher contract →
      s.registry.denoms.find? contract = none
  | .registered _ contract => ∀ t ∈ s.pool,
      submittedIn log t.id ≠ some (Denom.voucher contract)
  | _ => True

/-- The histories of a bridge that discards the effects of failures and keeps its contracts
apart. -/
inductive Committed : List Deed → Bridge → Prop
  | start : Committed [] empty
  | done {log : List Deed} {s s' : Bridge} {deed : Deed} (hcommitted : Committed log s)
      (hserves : Serves s (some deed) s') (hapart : Apart log s deed) :
      Committed (deed :: log) s'
  | discarded {log : List Deed} {s s' : Bridge} (hcommitted : Committed log s)
      (hserves : Serves s none s') : Committed log s

variable {log : List Deed} {s s' : Bridge} {d : Denom} {t : Transfer}

theorem Committed.run (h : Committed log s) : Run empty log s := by
  induction h with
  | start => exact .start
  | done _ hserves _ ih => exact ih.done hserves
  | discarded _ _ ih => exact ih

theorem Committed.soundStore (h : Committed log s) : s.store.Sound empty.ids.peek :=
  (Store.sound_empty empty.ids).leads h.run.leads

theorem Committed.soundRegistry (h : Committed log s) : s.registry.Sound :=
  h.run.soundRegistry Registry.sound_empty

/-- The invariant of committed histories.  Every pending transfer would be paid back in the
denomination it was submitted in, and every book agrees with the log. -/
structure Accounted (log : List Deed) (s : Bridge) : Prop where
  resolved : ∀ t ∈ s.pool, submittedIn log t.id = some (s.registry.denomOf t.contract).2
  issued : ∀ t ∈ outstanding log s, t.id < s.ids.peek
  books : ∀ d, Agrees log (outstanding log s) d (s.ledger.book d)

theorem accounted_empty : Accounted [] empty where
  resolved t ht := absurd ht (Pool.not_mem_empty t)
  issued t ht := by cases ht
  books d := ⟨Book.balanced_empty, Book.accounts_empty d⟩

theorem Accounted.fund (h : Accounted log s) (account : AccountId) (coin : Coin) :
    Accounted (.funded account coin :: log)
      { s with ledger := s.ledger.fund account coin } where
  resolved := h.resolved
  issued := h.issued
  books := by
    apply Ledger.forall_book_setBook
      (p := Agrees (.funded account coin :: log) (outstanding log s))
    · have hbook := h.books coin.denom
      refine ⟨hbook.balanced.fund account coin.amount, ?_⟩
      rw [fundedIn_funded_self]
      exact hbook.accounts.fund account coin.amount
    · intro d hd
      refine ⟨(h.books d).balanced, ?_⟩
      rw [fundedIn_funded_of_ne log account hd]
      exact (h.books d).accounts

theorem Accounted.switch (h : Accounted log s) (switches : SupplySwitches) :
    Accounted (.switched switches :: log)
      { s with ledger := { s.ledger with switches := switches } } where
  resolved := h.resolved
  issued := h.issued
  books d := ⟨(h.books d).balanced, (h.books d).accounts⟩

/-- A registration leaves the contracts of pending transfers alone. -/
theorem Accounted.register (h : Accounted log s) {contract : Address} {registry : Registry}
    (hregister : s.registry.register d contract = .ok registry)
    (hapart : Apart log s (.registered d contract)) :
    Accounted (.registered d contract :: log) { s with registry := registry } where
  resolved := by
    intro t ht
    have hfree := (Registry.register_eq_ok_iff.1 hregister).2.2.2.1
    have hsubmitted := h.resolved t ht
    have hne : t.contract ≠ contract := by
      rintro rfl
      rw [Registry.denomOf_of_none hfree] at hsubmitted
      exact hapart t ht hsubmitted
    change submittedIn log t.id = some (registry.denomOf t.contract).2
    rw [hsubmitted, Registry.denomOf, Registry.denomOf,
      Registry.find?_register_of_ne hregister hne]
  issued := h.issued
  books d := ⟨(h.books d).balanced, (h.books d).accounts⟩

/-- The log tells of an outstanding transfer what it told before an id was handed out. -/
theorem Accounted.submittedIn_of_outstanding (h : Accounted log s) (ht : t ∈ outstanding log s)
    (d : Denom) : submittedIn (.submitted s.ids.peek d :: log) t.id = submittedIn log t.id := by
  apply submittedIn_submitted_of_ne
  intro hid
  have hlt := h.issued t ht
  rw [hid] at hlt
  exact UInt64.lt_irrefl _ hlt

/-- A submission adds its transfer to the outstanding ones. -/
theorem Accounted.submit {first : UInt64} (h : Accounted log s) (hstore : s.store.Sound first)
    (hregistry : s.registry.Sound) {w : Withdrawal} {id : UInt64} {destination : Address}
    {origin : Origin} {contract : Address} {next : UInt64}
    (hsubmits : s.Submits w id s' destination origin contract next)
    (hapart : Apart log s (.submitted id w.amount.denom)) :
    Accounted (.submitted id w.amount.denom :: log) s' := by
  have hperm : (outstanding (.submitted id w.amount.denom :: log) s').Perm
      (w.toTransfer id destination contract :: outstanding log s) :=
    (hsubmits.walk_perm hstore).append_right _
  have hself := submittedIn_submitted_self log id w.amount.denom
  have hkept : ∀ t ∈ outstanding log s,
      submittedIn (.submitted id w.amount.denom :: log) t.id = submittedIn log t.id := by
    intro t ht
    rw [hsubmits.fresh]
    exact h.submittedIn_of_outstanding ht w.amount.denom
  refine ⟨?_, ?_, ?_⟩
  · intro t ht
    rw [hsubmits.registry]
    rcases (hsubmits.mem_iff hstore).1 ht with rfl | hold
    · have hback := hregistry.denomOf_of_contractOf hsubmits.resolved (hapart contract)
      change submittedIn _ id = some (s.registry.denomOf contract).2
      rw [hself, hback]
    · rw [hkept t (List.mem_append_left _ hold)]
      exact h.resolved t hold
  · intro t ht
    rcases List.mem_cons.1 (hperm.subset ht) with rfl | hold
    · change id < s'.ids.peek
      rw [hsubmits.fresh]
      exact hsubmits.peek_lt
    · exact UInt64.lt_trans (h.issued t hold) hsubmits.peek_lt
  · rw [hsubmits.ledger]
    intro other
    apply Agrees.perm _ hperm.symm
    revert other
    apply Ledger.forall_book_setBook (p := Agrees (.submitted id w.amount.denom :: log) _)
    · have hbook := h.books w.amount.denom
      refine ⟨hbook.balanced.collect origin hsubmits.covered, ?_⟩
      rw [valueIn_cons_of_eq hself, valueIn_congr hkept]
      exact hbook.accounts.collect hbook.balanced hsubmits.covered
        (Registry.origin_of_contractOf hsubmits.resolved)
    · intro d hd
      have hother : submittedIn (.submitted id w.amount.denom :: log)
          (w.toTransfer id destination contract).id ≠ some d := by
        intro heq
        exact hd (Option.some.inj (heq.symm.trans hself))
      refine ⟨(h.books d).balanced, ?_⟩
      rw [valueIn_cons_of_ne hother, valueIn_congr hkept]
      exact (h.books d).accounts

/-- A cancellation takes its transfer from the outstanding ones. -/
theorem Accounted.cancel (h : Accounted log s) (hregistry : s.registry.Sound) {origin : Origin}
    (hcancels : s.Cancels t s' origin d) : Accounted (.cancelled t.id :: log) s' := by
  have hperm : (outstanding log s).Perm (t :: outstanding (.cancelled t.id :: log) s') :=
    (Pool.walk_remove_perm hcancels.removed).append_right _
  have hsubmitted := h.resolved t hcancels.pending
  rw [hcancels.resolved] at hsubmitted
  refine ⟨?_, ?_, ?_⟩
  · intro u hu
    rw [hcancels.registry]
    exact h.resolved u ((Pool.mem_remove_iff hcancels.removed).2 (Or.inr hu))
  · intro u hu
    rw [hcancels.ids]
    exact h.issued u (hperm.symm.subset (List.mem_cons_of_mem _ hu))
  · rw [hcancels.ledger]
    apply Ledger.forall_book_setBook (p := Agrees (.cancelled t.id :: log) _)
    · have hbook := (h.books d).perm hperm
      have haccounts := hbook.accounts
      rw [valueIn_cons_of_eq hsubmitted] at haccounts
      exact ⟨hbook.balanced.refund origin t.sender hcancels.covered,
        haccounts.refund (hregistry.origin_of_denomOf hcancels.resolved) t.sender⟩
    · intro other hother
      have hne : submittedIn log t.id ≠ some other := by
        intro heq
        exact hother (Option.some.inj (heq.symm.trans hsubmitted))
      have hbook := (h.books other).perm hperm
      have haccounts := hbook.accounts
      rw [valueIn_cons_of_ne hne] at haccounts
      exact ⟨hbook.balanced, haccounts⟩

/-- A removal leaves its transfer outstanding. -/
theorem Accounted.remove {fee : TokenAmount} {id : UInt64} {pool : Pool} (h : Accounted log s)
    (hremove : s.pool.remove fee id = .ok (t, pool)) :
    Accounted (.removed t :: log) { s with pool := pool } := by
  have hperm : (outstanding log s).Perm
      (outstanding (.removed t :: log) { s with pool := pool }) :=
    ((Pool.walk_remove_perm hremove).append_right _).trans List.perm_middle.symm
  refine ⟨?_, ?_, ?_⟩
  · intro u hu
    exact h.resolved u ((Pool.mem_remove_iff hremove).2 (Or.inr hu))
  · intro u hu
    exact h.issued u (hperm.symm.subset hu)
  · intro d
    have hbook := (h.books d).perm hperm
    exact ⟨hbook.balanced, hbook.accounts⟩

theorem Committed.accounted (h : Committed log s) : Accounted log s := by
  induction h with
  | start => exact accounted_empty
  | done hcommitted hserves hapart ih =>
      cases hserves with
      | fund account coin => exact ih.fund account coin
      | switch switches => exact ih.switch switches
      | register hregister => exact ih.register hregister hapart
      | submit hsubmit =>
          obtain ⟨destination, origin, contract, next, hsubmits⟩ := exists_submits hsubmit
          exact ih.submit hcommitted.soundStore hcommitted.soundRegistry hsubmits hapart
      | cancel hcancel =>
          obtain ⟨t, origin, d, rfl, rfl, hcancels⟩ :=
            exists_cancels hcommitted.soundStore hcancel
          exact ih.cancel hcommitted.soundRegistry hcancels
      | remove hremove => exact ih.remove hremove
  | discarded _ _ ih => exact ih

/-- After every committed history, custody holds the native coins of all transfers that were not
paid back and no vouchers, and every coin that was issued and is not in the supply is a voucher of
such a transfer. -/
theorem committed_solvent (h : Committed log s) :
    (∀ d contract, s.registry.contracts.find? d = some contract →
      s.ledger.custody d =
          valueIn log d (s.pool.walk .all) + valueIn log d (removedTransfers log) ∧
        s.ledger.supply d = fundedIn log d) ∧
      ∀ contract, s.ledger.custody (Denom.voucher contract) = 0 ∧
        s.ledger.supply (Denom.voucher contract) +
            (valueIn log (Denom.voucher contract) (s.pool.walk .all) +
              valueIn log (Denom.voucher contract) (removedTransfers log)) =
          fundedIn log (Denom.voucher contract) := by
  constructor
  · intro d contract hfind
    have hnative : ¬ d.IsVoucher :=
      h.soundRegistry.native d contract (h.soundRegistry.paired d contract hfind)
    have hbook := (h.accounted.books d).accounts
    rw [Book.Accounts, if_neg hnative, outstanding, valueIn_append] at hbook
    exact hbook
  · intro contract
    have hbook := (h.accounted.books (Denom.voucher contract)).accounts
    rw [Book.Accounts, if_pos (Denom.isVoucher_voucher contract), outstanding,
      valueIn_append] at hbook
    exact hbook

/-- What led to the sample in which vouchers and atoms are pending, on contracts of their own. -/
def sampleLog : List Deed :=
  [.submitted 2 "uatom", .registered "uatom" Address.zero, .funded Sample.bob ⟨"uatom", 1000⟩,
    .submitted 1 (Denom.voucher Sample.contract),
    .funded Sample.alice ⟨Denom.voucher Sample.contract, 1000⟩]

open Sample in
theorem committed_sample : Committed sampleLog (mixedOn Address.zero) := by
  have hfunded : Committed [.funded alice ⟨Denom.voucher contract, 1000⟩] funded :=
    .done .start (.fund _ _) trivial
  have hsubmit : (submit env withdrawal).runFrom funded = (.ok 1, pending) := by rfl
  have hpending := Committed.done hfunded (.submit hsubmit) fun _ _ => rfl
  have hissued := hpending.done (.fund bob ⟨"uatom", 1000⟩) trivial
  have hregister : pending.registry.register "uatom" Address.zero =
      .ok (listedOn Address.zero).registry := by rfl
  have hapart : ∀ t ∈ pending.pool.walk .all, submittedIn
      [.funded bob ⟨"uatom", 1000⟩, .submitted 1 (Denom.voucher contract),
        .funded alice ⟨Denom.voucher contract, 1000⟩] t.id ≠
      some (Denom.voucher Address.zero) := by decide +kernel
  have hlisted : Committed _ (listedOn Address.zero) :=
    hissued.done (.register hregister) hapart
  have hnative : ∀ carrier, "uatom" ≠ Denom.voucher carrier := by
    intro carrier heq
    have hvoucher := Denom.isVoucher_voucher carrier
    rw [← heq] at hvoucher
    revert hvoucher
    decide
  have hatoms : (submit env atoms).runFrom (listedOn Address.zero) =
      (.ok 2, mixedOn Address.zero) := by rfl
  exact hlisted.done (.submit hatoms) fun carrier heq => absurd heq (hnative carrier)

open Sample in
/-- Vouchers are pending, and atoms are taken out of the pool on a contract of their own. -/
theorem committed_solvent_of_sample :
    ∃ log s, Committed log s ∧ s.registry.contracts.find? "uatom" = some Address.zero ∧
      s.ledger.custody "uatom" =
        valueIn log "uatom" (s.pool.walk .all) + valueIn log "uatom" (removedTransfers log) ∧
      s.ledger.supply (Denom.voucher contract) +
          (valueIn log (Denom.voucher contract) (s.pool.walk .all) +
            valueIn log (Denom.voucher contract) (removedTransfers log)) =
        fundedIn log (Denom.voucher contract) := by
  have hremove : (mixedOn Address.zero).pool.remove ⟨Address.zero, 0⟩ 2 =
      .ok (atoms.toTransfer 2 contract Address.zero, pending.pool) := by rfl
  have hcommitted := committed_sample.done (.remove hremove) trivial
  obtain ⟨hcustody, hvouchers⟩ := committed_solvent hcommitted
  exact ⟨_, _, hcommitted, by rfl, (hcustody "uatom" Address.zero (by rfl)).1,
    (hvouchers contract).2⟩

end Bridge

end WithdrawalPool
