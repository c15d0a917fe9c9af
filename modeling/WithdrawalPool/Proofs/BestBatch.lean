/-
What the next batch of a contract earns is the most that any batch of its size could.  The walk
that sums up the batch meets the fees in descending order, so whatever else is chosen of the pending
transfers can be exchanged, one by one, for transfers at the front of the walk.
-/
import Mathlib.Algebra.BigOperators.Group.Finset.Basic
import Mathlib.Algebra.GroupWithZero.Nat
import Mathlib.Data.List.Perm.Subperm
import Mathlib.Order.Bounds.Basic
import WithdrawalPool.Proofs.FeeOrder
import WithdrawalPool.Proofs.Traversal

namespace WithdrawalPool

/-- The sum of the fees of some transfers. -/
def feesOf (ts : List Transfer) : Nat := (ts.map fun t => t.fee.amount).sum

theorem feesOf_cons (t : Transfer) (ts : List Transfer) :
    feesOf (t :: ts) = t.fee.amount + feesOf ts := by
  rw [feesOf, List.map_cons, List.sum_cons]
  rfl

theorem feesOf_append (ts us : List Transfer) : feesOf (ts ++ us) = feesOf ts + feesOf us := by
  rw [feesOf, List.map_append, List.sum_append]
  rfl

theorem feesOf_perm {ts us : List Transfer} (h : ts.Perm us) : feesOf ts = feesOf us :=
  (h.map _).sum_nat

/-- The fees descend along the list. -/
def FeesDescend (ts : List Transfer) : Prop :=
  ts.Pairwise fun earlier later => later.fee.amount ≤ earlier.fee.amount

/-- Where fees descend, no `n` transfers of the list have more of them than the first `n`. -/
theorem FeesDescend.feesOf_sublist_le {ts us : List Transfer} (h : FeesDescend ts)
    (hsub : us.Sublist ts) {n : Nat} (hn : us.length ≤ n) : feesOf us ≤ feesOf (ts.take n) := by
  induction ts generalizing us n with
  | nil =>
      obtain rfl := List.sublist_nil.1 hsub
      exact Nat.zero_le _
  | cons t ts ih =>
      obtain ⟨hfirst, hrest⟩ := List.pairwise_cons.1 h
      cases us with
      | nil => exact Nat.zero_le _
      | cons u us =>
          obtain ⟨m, rfl⟩ := Nat.exists_eq_add_of_le' (Nat.le_trans (Nat.succ_pos us.length) hn)
          have hlength : us.length ≤ m := Nat.le_of_succ_le_succ hn
          rw [List.take_succ_cons, feesOf_cons, feesOf_cons]
          -- The first choice is at most the first of the list, wherever it stands.
          rcases List.sublist_cons_iff.1 hsub with hlater | ⟨_, heq, hlater⟩
          · have hle := hfirst u (hlater.subset List.mem_cons_self)
            have hothers := ih hrest ((List.sublist_cons_self u us).trans hlater) hlength
            exact Nat.add_le_add hle hothers
          · obtain ⟨rfl, rfl⟩ := List.cons.inj heq
            exact Nat.add_le_add_left (ih hrest hlater hlength) _

theorem FeesDescend.feesOf_le {ts us : List Transfer} (h : FeesDescend ts) (hsub : us.Subperm ts)
    {n : Nat} (hn : us.length ≤ n) : feesOf us ≤ feesOf (ts.take n) := by
  obtain ⟨vs, hperm, hvs⟩ := hsub
  rw [← feesOf_perm hperm]
  exact h.feesOf_sublist_le hvs (hperm.length_eq.trans_le hn)

theorem FeeSummary.totalFees_ofBatch (token : Address) (batch : List Transfer) :
    (ofBatch token batch).totalFees = feesOf batch := by
  induction batch using List.reverseRecOn with
  | nil => rfl
  | append_singleton batch t ih =>
      rw [ofBatch_append_singleton, feesOf_append, ← ih]
      rfl

namespace Pool

variable {p : Pool} {contract : Address} {cap : UInt64}

theorem feesDescend_walk (p : Pool) (contract : Address) :
    FeesDescend (p.walk (.contract contract)) :=
  List.pairwise_map.1 (p.pairwise_fee_walk contract)

theorem Filed.mem_walk_contract_iff (h : p.Filed) {t : Transfer} :
    t ∈ p.walk (.contract contract) ↔ t ∈ p ∧ t.contract = contract := by
  rw [← h.filter_walk, List.mem_filter, decide_eq_true_eq]
  rfl

theorem Filed.nodup_walk_contract (h : p.Filed) (contract : Address) :
    (p.walk (.contract contract)).Nodup := by
  rw [← h.filter_walk]
  exact h.nodup_walk.filter _

theorem Filed.length_walk_contract (h : p.Filed) (contract : Address) :
    (p.walk (.contract contract)).length =
      (p.walk .all).countP fun t => t.contract = contract := by
  rw [← h.filter_walk, List.countP_eq_length_filter]

/-- The sums of fees that batches of at most `n` transfers of the contract can have. -/
def BatchFees (p : Pool) (contract : Address) (n : Nat) : Set Nat :=
  {fees | ∃ chosen : Finset Transfer, chosen.card ≤ n ∧
    (∀ t ∈ chosen, t ∈ p ∧ t.contract = contract) ∧ ∑ t ∈ chosen, t.fee.amount = fees}

theorem Filed.isGreatest_feesOf (h : p.Filed) (contract : Address) (n : Nat) :
    IsGreatest (p.BatchFees contract n) (feesOf ((p.walk (.contract contract)).take n)) := by
  have hnodup := h.nodup_walk_contract contract
  constructor
  · have htake := hnodup.sublist (List.take_sublist n _)
    refine ⟨((p.walk (.contract contract)).take n).toFinset, ?_, fun t ht => ?_,
      List.sum_toFinset _ htake⟩
    · rw [List.toFinset_card_of_nodup htake]
      exact List.length_take_le n _
    · exact h.mem_walk_contract_iff.1 (List.mem_of_mem_take (List.mem_toFinset.1 ht))
  · rintro _ ⟨chosen, hcard, hchosen, rfl⟩
    rw [← Finset.sum_map_toList]
    have hsubset : chosen.toList ⊆ p.walk (.contract contract) := by
      intro t ht
      exact h.mem_walk_contract_iff.2 (hchosen t (Finset.mem_toList.1 ht))
    apply (p.feesDescend_walk contract).feesOf_le (chosen.nodup_toList.subperm hsubset)
    rwa [Finset.length_toList]

section

variable {token : Address} {batch : List Transfer} {t : Transfer}

/-- The visitor that sums up a batch has counted all that it was shown. -/
theorem stateAfter_countChecked (hbatch : ∀ t ∈ batch, t.contract = token) :
    stateAfter (countChecked cap) (.ok (.empty token)) batch = .ok (.ofBatch token batch) := by
  induction batch using List.reverseRecOn with
  | nil => rfl
  | append_singleton batch t ih =>
      have hbefore := ih fun u hu => hbatch u (List.mem_append_left _ hu)
      have ht : t.fee.contract = (FeeSummary.ofBatch token batch).token := by
        rw [FeeSummary.token_ofBatch]
        exact hbatch t (List.mem_append_right _ List.mem_cons_self)
      have hlast : stateAfter (countChecked cap) (.ok (.empty token)) (batch ++ [t]) =
          (countChecked cap (stateAfter (countChecked cap) (.ok (.empty token)) batch) t).value := by
        rw [stateAfter, List.foldl_append]
        rfl
      rw [hlast, hbefore, countChecked, FeeSummary.addChecked, if_neg (not_not_intro ht),
        FeeSummary.ofBatch_append_singleton]
      split <;> rfl

/-- The visitor that sums up a batch is done with the transfer that fills the batch. -/
theorem doneAt_countChecked_iff (hbatch : ∀ t ∈ batch, t.contract = token)
    (ht : t.contract = token) (hlength : batch.length < cap.toNat) :
    DoneAt (countChecked cap) (.ok (.empty token)) batch t ↔ batch.length + 1 = cap.toNat := by
  have hcap : cap.toNat < UInt64.size := cap.toNat_lt
  have hbefore : (FeeSummary.ofBatch token batch).txCount.toNat = batch.length :=
    FeeSummary.toNat_txCount_ofBatch (by omega)
  have hcount := FeeSummary.toNat_txCount_add (s := .ofBatch token batch) (by omega) t
  have hcontract : t.fee.contract = (FeeSummary.ofBatch token batch).token := by
    rw [FeeSummary.token_ofBatch]
    exact ht
  rw [DoneAt, stateAfter_countChecked hbatch, countChecked, FeeSummary.addChecked,
    if_neg (not_not_intro hcontract), ← hbefore, ← hcount, UInt64.toNat_inj]
  split <;> simp [*]

/-- The visitor that sums up a batch is shown the batch. -/
theorem shown_countChecked {ts : List Transfer} (hts : ∀ t ∈ ts, t.contract = token)
    (hcap : cap ≠ 0) :
    Shown (countChecked cap) (.ok (.empty token)) ts (ts.take cap.toNat) := by
  have hpos : 0 < cap.toNat := UInt64.lt_iff_toNat_lt.1 (UInt64.pos_iff_ne_zero.2 hcap)
  -- A segment that is too short for a batch ends with nothing that fills one.
  have hgoesOn {us : List Transfer} (hus : us <+: ts) (hshort : us.length < cap.toNat) :
      GoesOn (countChecked cap) (.ok (.empty token)) us := by
    intro before t hinitial hdone
    have hlength := hinitial.length_le
    rw [List.length_append, List.length_singleton] at hlength
    have hmem {u : Transfer} (hu : u ∈ before ++ [t]) : u.contract = token :=
      hts u ((hinitial.trans hus).subset hu)
    have hfull := (doneAt_countChecked_iff (fun u hu => hmem (List.mem_append_left _ hu))
      (hmem (List.mem_append_right _ List.mem_cons_self)) (by omega)).1 hdone
    omega
  by_cases hroom : ts.length < cap.toNat
  · rw [List.take_of_length_le (Nat.le_of_lt hroom)]
    exact .all (hgoesOn (List.prefix_refl ts) hroom)
  · obtain ⟨n, hn⟩ : ∃ n, cap.toNat = n + 1 := ⟨cap.toNat - 1, by omega⟩
    have hlt : n < ts.length := by omega
    have htake : ts.take cap.toNat = ts.take n ++ [ts[n]] := by
      rw [hn, List.take_append_getElem]
    have hlength : (ts.take n).length = n := List.length_take_of_le (Nat.le_of_lt hlt)
    have hinitial : ts.take n ++ [ts[n]] <+: ts := htake ▸ List.take_prefix _ _
    rw [htake]
    refine .upTo hinitial (hgoesOn (List.take_prefix n ts) (by omega)) ?_
    exact (doneAt_countChecked_iff (fun u hu => hts u (List.mem_of_mem_take hu))
      (hts _ (List.getElem_mem hlt)) (by omega)).2 (by omega)

end

/-- Where every transfer is filed under the contract of its fee, a query for the next batch of a
contract is answered.  The batch has as many transfers as the cap and the pool allow, and its fees
are the greatest sum that so many transfers of the contract, or fewer, can have.  It consists of the
first transfers of a walk through the contract, and these are all that the query looks at. -/
theorem next_batch_is_the_best (h : p.Filed) (contract : Address) (cap : UInt64) :
    ∃ summary, p.feeSummary contract cap = .ok summary ∧ summary.token = contract ∧
      summary.txCount.toNat =
        min cap.toNat ((p.walk .all).countP fun t => t.contract = contract) ∧
      summary.txCount ≤ cap ∧
      IsGreatest (p.BatchFees contract cap.toNat) summary.totalFees ∧
      summary.totalFees =
        feesOf ((p.walk (.contract contract)).take summary.txCount.toNat) ∧
      (cap ≠ 0 → p.visit (.contract contract) (recording (countChecked cap))
          (.ok (.empty contract), []) =
        (.ok summary, (p.walk (.contract contract)).take summary.txCount.toNat)) := by
  have hcount := FeeSummary.toNat_txCount_ofBatch_take contract cap (p.walk (.contract contract))
  have htake : (p.walk (.contract contract)).take
      (min cap.toNat (p.walk (.contract contract)).length) =
        (p.walk (.contract contract)).take cap.toNat := by
    rw [← List.take_take, List.take_length]
  refine ⟨_, h.feeSummary_eq_ok contract cap, FeeSummary.token_ofBatch _ _, ?_, ?_, ?_, ?_, ?_⟩
  · rw [batch, hcount, h.length_walk_contract]
  · rw [batch, UInt64.le_iff_toNat_le, hcount]
    exact Nat.min_le_left _ _
  · rw [FeeSummary.totalFees_ofBatch]
    exact h.isGreatest_feesOf contract cap.toNat
  · rw [FeeSummary.totalFees_ofBatch, batch, hcount, htake]
  · intro hcap
    obtain ⟨seen, hrecord, hstate, hshown⟩ :=
      p.exists_visited (.contract contract) (countChecked cap) (.ok (.empty contract))
    have hseen := (hshown _).1 (shown_countChecked (fun t => h.contract_of_mem_walk) hcap)
    rw [hrecord, hstate, ← hseen, batch, hcount, htake,
      stateAfter_countChecked fun t ht => h.contract_of_mem_walk (List.mem_of_mem_take ht)]

open Sample in
/-- Of two pending transfers the one with the higher fee makes the best batch of one. -/
theorem next_batch_is_the_best_of_sample :
    both.Filed ∧ both.feeSummary Sample.contract 1 = .ok ⟨Sample.contract, 9, 1⟩ ∧
      IsGreatest (both.BatchFees Sample.contract 1) 9 := by
  have hsummary : both.feeSummary Sample.contract 1 = .ok ⟨Sample.contract, 9, 1⟩ := by
    decide +kernel
  obtain ⟨summary, hok, _, _, _, hgreatest, _⟩ := next_batch_is_the_best filed_both Sample.contract 1
  obtain rfl := Except.ok.inj (hsummary.symm.trans hok)
  exact ⟨filed_both, hsummary, hgreatest⟩

end Pool

end WithdrawalPool
