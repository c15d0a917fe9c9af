/-
What is left to earn after a batch, and after a new arrival.  The next batch of a contract is the
front of the walk through it, so taking a batch out leaves the rest of the walk, and a transfer that
arrives pushes at most one other out of a batch.
-/
import WithdrawalPool.Proofs.BestBatch

namespace WithdrawalPool

theorem feesOf_le_erase_add (ts : List Transfer) (t : Transfer) :
    feesOf ts ≤ feesOf (ts.erase t) + t.fee.amount := by
  by_cases ht : t ∈ ts
  · rw [feesOf_perm (List.perm_cons_erase ht), feesOf_cons, Nat.add_comm]
  · rw [List.erase_of_not_mem ht]
    exact Nat.le_add_right _ _

namespace FeesDescend

variable {ts : List Transfer}

/-- A batch earns at least what a later one of that size, or smaller, does. -/
theorem feesOf_drop_le (h : FeesDescend ts) {m k : Nat} (hk : k ≤ m) :
    feesOf ((ts.drop m).take k) ≤ feesOf (ts.take m) := by
  apply h.feesOf_sublist_le ((List.take_sublist k _).trans (List.drop_sublist m ts))
  exact (List.length_take_le k _).trans hk

theorem feesOf_erase_le (h : FeesDescend ts) (t : Transfer) (k : Nat) :
    feesOf ((ts.erase t).take k) ≤ feesOf (ts.take k) :=
  h.feesOf_sublist_le ((List.take_sublist k _).trans List.erase_sublist) (List.length_take_le k _)

/-- A transfer adds to what a batch earns no more than its own fee. -/
theorem feesOf_take_le_erase (h : FeesDescend ts) (t : Transfer) (k : Nat) :
    feesOf (ts.take k) ≤ feesOf ((ts.erase t).take k) + t.fee.amount := by
  have hothers : ((ts.take k).erase t).Sublist (ts.erase t) := (List.take_sublist k ts).erase t
  have hlength : ((ts.take k).erase t).length ≤ k :=
    List.erase_sublist.length_le.trans (List.length_take_le k ts)
  have hrest : FeesDescend (ts.erase t) := List.Pairwise.sublist List.erase_sublist h
  calc feesOf (ts.take k) ≤ feesOf ((ts.take k).erase t) + t.fee.amount :=
        feesOf_le_erase_add _ t
    _ ≤ feesOf ((ts.erase t).take k) + t.fee.amount :=
        Nat.add_le_add_right (hrest.feesOf_sublist_le hothers hlength) _

end FeesDescend

namespace Pool

variable {p p' : Pool} {contract : Address} {t : Transfer}

/-- Taking a transfer out leaves the order of the others. -/
theorem Filed.walk_remove (h : p.Filed) {fee : TokenAmount} {id : UInt64}
    (hremove : p.remove fee id = .ok (t, p')) (scope : Scope) :
    p'.walk scope = (p.walk scope).erase t := by
  have hfiled : p'.Filed := h.remove hremove
  have hperm : (p'.walk .all).Perm ((p.walk .all).erase t) := by
    have herase := (walk_remove_perm hremove).erase t
    rw [List.erase_cons_head] at herase
    exact herase.symm
  have hall : p'.walk .all = (p.walk .all).erase t := by
    -- Places descend strictly along either list, which leaves one order for its transfers.
    apply hperm.eq_of_pairwise _ hfiled.pairwise_place
      (h.pairwise_place.sublist List.erase_sublist)
    intro left right _ _ hlt hgt
    rw [Std.OrientedCmp.gt_of_lt hlt] at hgt
    contradiction
  cases scope with
  | all => exact hall
  | contract contract =>
      rw [← hfiled.filter_walk, ← h.filter_walk, hall, h.nodup_walk.erase_eq_filter,
        (h.nodup_walk.filter _).erase_eq_filter, List.filter_filter, List.filter_filter]
      simp only [Bool.and_comm]

/-- Taking a transfer of one contract out leaves those of another. -/
theorem Filed.walk_remove_of_ne (h : p.Filed) {fee : TokenAmount} {id : UInt64}
    (hremove : p.remove fee id = .ok (t, p')) (hne : contract ≠ t.contract) :
    p'.walk (.contract contract) = p.walk (.contract contract) := by
  rw [h.walk_remove hremove]
  apply List.erase_of_not_mem
  intro ht
  exact hne (h.contract_of_mem_walk ht).symm

theorem feeSummary_congr {q : Pool}
    (h : p.walk (.contract contract) = q.walk (.contract contract)) (cap : UInt64) :
    p.feeSummary contract cap = q.feeSummary contract cap := by
  rw [feeSummary_eq, feeSummary_eq, batch, batch, h]

/-- Takes transfers out one after the other, as long as that succeeds. -/
def removeEach (p : Pool) : List Transfer → Except PoolError Pool
  | [] => .ok p
  | t :: rest =>
    match p.remove t.fee t.id with
    | .ok (_, p') => p'.removeEach rest
    | .error e => .error e

/-- Taking the first transfers of a contract out leaves its later ones and all others. -/
theorem Filed.exists_removeEach (h : p.Filed) (contract : Address) (m : Nat) :
    ∃ rest, p.removeEach ((p.walk (.contract contract)).take m) = .ok rest ∧ rest.Filed ∧
      rest.walk (.contract contract) = (p.walk (.contract contract)).drop m ∧
      ∀ other, other ≠ contract → rest.walk (.contract other) = p.walk (.contract other) := by
  induction m generalizing p with
  | zero => exact ⟨p, rfl, h, rfl, fun _ _ => rfl⟩
  | succ m ih =>
      cases hwalk : p.walk (.contract contract) with
      | nil => exact ⟨p, rfl, h, hwalk, fun _ _ => rfl⟩
      | cons t ts =>
          obtain ⟨ht, hcontract⟩ := h.mem_walk_contract_iff.1 (hwalk ▸ List.mem_cons_self)
          obtain ⟨q, hremove⟩ : ∃ q, p.remove t.fee t.id = .ok (t, q) :=
            ⟨_, remove_eq_ok_iff.2 ⟨h.find?_of_mem ht, rfl⟩⟩
          -- What is left of the walk starts with the transfer that is due next.
          have hq : q.walk (.contract contract) = ts := by
            rw [h.walk_remove hremove, hwalk, List.erase_cons_head]
          obtain ⟨rest, heach, hfiled, hrest, hothers⟩ := ih (h.remove hremove)
          rw [hq] at heach hrest
          refine ⟨rest, ?_, hfiled, hrest, fun other hother => ?_⟩
          · rw [List.take_succ_cons, removeEach, hremove]
            exact heach
          · rw [hothers other hother]
            exact h.walk_remove_of_ne hremove (hcontract.symm ▸ hother)

theorem Filed.exists_feeSummary (h : p.Filed) (contract : Address) (cap : UInt64) :
    ∃ summary, p.feeSummary contract cap = .ok summary ∧
      summary.totalFees = feesOf ((p.walk (.contract contract)).take cap.toNat) ∧
      summary.txCount.toNat = min cap.toNat (p.walk (.contract contract)).length :=
  ⟨_, h.feeSummary_eq_ok contract cap, FeeSummary.totalFees_ofBatch _ _,
    FeeSummary.toNat_txCount_ofBatch_take _ _ _⟩

/-- Batches of one size are summed up and taken out, one after the other. -/
inductive Draws (contract : Address) (size : UInt64) : Pool → List FeeSummary → Pool → Prop
  | none (p : Pool) : Draws contract size p [] p
  | next {p q rest : Pool} {summary : FeeSummary} {later : List FeeSummary}
      (hsummary : p.feeSummary contract size = .ok summary)
      (hremove : p.removeEach (p.batch contract size) = .ok q)
      (hlater : Draws contract size q later rest) : Draws contract size p (summary :: later) rest

variable {size : UInt64} {rest : Pool} {summaries : List FeeSummary}

/-- Taking a batch out leaves a pool of which the next batch earns no more. -/
theorem Filed.draw (h : p.Filed) {q : Pool}
    (hremove : p.removeEach (p.batch contract size) = .ok q) :
    q.Filed ∧ feesOf (q.batch contract size) ≤ feesOf (p.batch contract size) := by
  obtain ⟨_, heach, hfiled, hwalk, _⟩ := h.exists_removeEach contract size.toNat
  obtain rfl := Except.ok.inj (heach.symm.trans hremove)
  refine ⟨hfiled, ?_⟩
  rw [batch, batch, hwalk]
  exact (p.feesDescend_walk contract).feesOf_drop_le (Nat.le_refl _)

/-- No batch earns more than the one that is due before it, or than any other before. -/
theorem Draws.totalFees_le (hdraws : Draws contract size p summaries rest) (h : p.Filed) :
    (∀ summary ∈ summaries, summary.totalFees ≤ feesOf (p.batch contract size)) ∧
      summaries.Pairwise fun earlier later => later.totalFees ≤ earlier.totalFees := by
  induction hdraws with
  | none => exact ⟨fun _ hnone => absurd hnone List.not_mem_nil, List.Pairwise.nil⟩
  | next hsummary hremove _ ih =>
      obtain ⟨_, hok, hfees, _⟩ := h.exists_feeSummary contract size
      obtain rfl := Except.ok.inj (hok.symm.trans hsummary)
      obtain ⟨hfiled, hle⟩ := h.draw hremove
      obtain ⟨hlater, hpairwise⟩ := ih hfiled
      have hbelow := fun summary hmem => (hlater summary hmem).trans hle
      refine ⟨List.forall_mem_cons.2 ⟨Nat.le_of_eq hfees, hbelow⟩,
        List.pairwise_cons.2 ⟨fun summary hmem => ?_, hpairwise⟩⟩
      rw [hfees]
      exact hbelow summary hmem

theorem Filed.exists_draws (h : p.Filed) (contract : Address) (size : UInt64) (n : Nat) :
    ∃ summaries rest, Draws contract size p summaries rest ∧ summaries.length = n := by
  induction n generalizing p with
  | zero => exact ⟨[], p, .none p, rfl⟩
  | succ n ih =>
      obtain ⟨summary, hsummary, _⟩ := h.exists_feeSummary contract size
      obtain ⟨q, hremove, hfiled, _⟩ := h.exists_removeEach contract size.toNat
      obtain ⟨later, rest, hlater, hlength⟩ := ih hfiled
      exact ⟨summary :: later, rest, .next hsummary hremove hlater, congrArg (· + 1) hlength⟩

/-- Where every transfer is filed under the contract of its fee, taking the first `m` transfers of a
contract out leaves a pool of which the next batch of `k` has what a batch of `m + k` has over one
of `m`, in fees and in number.  So batches of one size, taken out one after the other, earn less and
less, or the same.  A new transfer on the contract never lowers what a batch earns, and raises it by
its own fee at most.  Neither touches what the batches of other contracts earn. -/
theorem fees_under_batching_and_arrival (h : p.Filed) (contract : Address) :
    (∀ m k : UInt64, m.toNat + k.toNat < UInt64.size →
      ∃ rest first next both,
        p.removeEach ((p.walk (.contract contract)).take m.toNat) = .ok rest ∧ rest.Filed ∧
        p.feeSummary contract m = .ok first ∧ rest.feeSummary contract k = .ok next ∧
        p.feeSummary contract (m + k) = .ok both ∧
        first.totalFees + next.totalFees = both.totalFees ∧
        first.txCount.toNat + next.txCount.toNat = both.txCount.toNat ∧
        ∀ other, other ≠ contract → ∀ cap,
          rest.feeSummary other cap = p.feeSummary other cap) ∧
      (∀ size, (∀ n, ∃ summaries rest,
          Draws contract size p summaries rest ∧ summaries.length = n) ∧
        ∀ summaries rest, Draws contract size p summaries rest →
          summaries.Pairwise fun earlier later => later.totalFees ≤ earlier.totalFees) ∧
      ∀ t : Transfer, t.contract = contract → p.find? contract t.key = none →
        ∃ p', p.insert t = .ok p' ∧ p'.Filed ∧
          (∀ cap, ∃ before after,
            p.feeSummary contract cap = .ok before ∧ p'.feeSummary contract cap = .ok after ∧
            before.totalFees ≤ after.totalFees ∧
            after.totalFees ≤ before.totalFees + t.fee.amount) ∧
          ∀ other, other ≠ contract → ∀ cap,
            p'.feeSummary other cap = p.feeSummary other cap := by
  have hdescend := p.feesDescend_walk contract
  refine ⟨fun m k hroom => ?_, fun size => ⟨h.exists_draws contract size, ?_⟩, ?_⟩
  · obtain ⟨rest, heach, hfiled, hwalk, hothers⟩ := h.exists_removeEach contract m.toNat
    obtain ⟨first, hfirst, hfirstFees, hfirstCount⟩ := h.exists_feeSummary contract m
    obtain ⟨next, hnext, hnextFees, hnextCount⟩ := hfiled.exists_feeSummary contract k
    obtain ⟨both, hboth, hbothFees, hbothCount⟩ := h.exists_feeSummary contract (m + k)
    have hsum : (m + k).toNat = m.toNat + k.toNat := by
      rw [UInt64.toNat_add]
      exact Nat.mod_eq_of_lt hroom
    rw [hwalk] at hnextFees hnextCount
    rw [hsum] at hbothFees hbothCount
    refine ⟨rest, first, next, both, heach, hfiled, hfirst, hnext, hboth, ?_, ?_,
      fun other hother cap => feeSummary_congr (hothers other hother) cap⟩
    · rw [hfirstFees, hnextFees, hbothFees, List.take_add, feesOf_append]
    · rw [hfirstCount, hnextCount, hbothCount, List.length_drop]
      omega
  · intro summaries rest hdraws
    exact (hdraws.totalFees_le h).2
  · rintro t rfl hnew
    have hfiled : (p.place t.contract t).Filed := h.place t
    have hremove := remove_place hnew
    have hwalk := hfiled.walk_remove hremove (.contract t.contract)
    have harrived := (p.place t.contract t).feesDescend_walk t.contract
    refine ⟨_, insert_eq_ok_iff.2 ⟨hnew, rfl⟩, hfiled, fun cap => ?_, fun other hother cap => ?_⟩
    · obtain ⟨before, hbefore, hbeforeFees, _⟩ := h.exists_feeSummary t.contract cap
      obtain ⟨after, hafter, hafterFees, _⟩ := hfiled.exists_feeSummary t.contract cap
      rw [hwalk] at hbeforeFees
      refine ⟨before, after, hbefore, hafter, ?_, ?_⟩
      · rw [hbeforeFees, hafterFees]
        exact harrived.feesOf_erase_le t cap.toNat
      · rw [hbeforeFees, hafterFees]
        exact harrived.feesOf_take_le_erase t cap.toNat
    · exact (feeSummary_congr (hfiled.walk_remove_of_ne hremove hother) cap).symm

open Sample in
/-- Two transfers are pending, with fees of 9 and 7.  Once the first is out, the other makes the
next batch, and a fee of 8 may still join them. -/
theorem fees_under_batching_and_arrival_of_sample :
    both.Filed ∧ both.find? Sample.contract ⟨8, 3⟩ = none ∧
      (∃ rest next, both.removeEach [high] = .ok rest ∧
        rest.feeSummary Sample.contract 1 = .ok next ∧ 9 + next.totalFees = 16) ∧
      ∃ p', both.insert { low with id := 3, fee := ⟨Sample.contract, 8⟩ } = .ok p' ∧
        p'.Filed := by
  have hfree : both.find? Sample.contract ⟨8, 3⟩ = none := by decide +kernel
  have hwalk : both.walk (.contract Sample.contract) = [high, low] := by decide +kernel
  have hone : both.feeSummary Sample.contract 1 = .ok ⟨Sample.contract, 9, 1⟩ := by
    decide +kernel
  have htwo : both.feeSummary Sample.contract (1 + 1) = .ok ⟨Sample.contract, 16, 2⟩ := by
    decide +kernel
  obtain ⟨hbatches, _, harrivals⟩ := fees_under_batching_and_arrival filed_both Sample.contract
  obtain ⟨rest, first, next, both', heach, _, hfirst, hnext, hboth, hfees, _⟩ :=
    hbatches 1 1 (by decide)
  obtain ⟨p', hinsert, hfiled, _⟩ :=
    harrivals { low with id := 3, fee := ⟨Sample.contract, 8⟩ } rfl hfree
  obtain rfl := Except.ok.inj (hone.symm.trans hfirst)
  obtain rfl := Except.ok.inj (htwo.symm.trans hboth)
  rw [hwalk] at heach
  exact ⟨filed_both, hfree, ⟨rest, next, heach, hnext, hfees⟩, p', hinsert, hfiled⟩

end Pool

end WithdrawalPool
