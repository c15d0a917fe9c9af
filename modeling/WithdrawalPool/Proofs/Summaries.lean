/-
The fees of all contracts, found in one walk.  The walk meets the transfers of all contracts, and
what it counts for one of them is what a walk through that contract alone would count.
-/
import Mathlib.Data.List.Induction
import WithdrawalPool.Proofs.Batching
import WithdrawalPool.Proofs.Building

namespace WithdrawalPool

namespace FeeSummary

variable {token : Address} {batch : List Transfer}

theorem ofBatch_append_singleton (token : Address) (batch : List Transfer) (t : Transfer) :
    ofBatch token (batch ++ [t]) = (ofBatch token batch).add t := by
  rw [ofBatch, List.foldl_append]
  rfl

@[simp] theorem token_ofBatch (token : Address) (batch : List Transfer) :
    (ofBatch token batch).token = token := by
  induction batch using List.reverseRecOn with
  | nil => rfl
  | append_singleton batch t ih =>
      rw [ofBatch_append_singleton]
      exact ih

theorem toNat_txCount_ofBatch (h : batch.length < UInt64.size) :
    (ofBatch token batch).txCount.toNat = batch.length := by
  induction batch using List.reverseRecOn with
  | nil => rfl
  | append_singleton batch t ih =>
      rw [List.length_append, List.length_singleton] at h ⊢
      have hcount := ih (Nat.lt_of_succ_lt h)
      rw [ofBatch_append_singleton, toNat_txCount_add (by rwa [hcount]), hcount]

theorem toNat_txCount_ofBatch_take (token : Address) (cap : UInt64) (ts : List Transfer) :
    (ofBatch token (ts.take cap.toNat)).txCount.toNat = min cap.toNat ts.length := by
  have hlength : (ts.take cap.toNat).length = min cap.toNat ts.length := List.length_take
  have hcap : cap.toNat < UInt64.size := cap.toNat_lt
  rw [toNat_txCount_ofBatch (by omega), hlength]

/-- The transfer that follows the first `cap` ones is not counted. -/
theorem ofBatch_take_append_singleton (token : Address) (cap : UInt64) (ts : List Transfer)
    (t : Transfer) :
    ofBatch token ((ts ++ [t]).take cap.toNat) =
      if (ofBatch token (ts.take cap.toNat)).txCount < cap
      then (ofBatch token (ts.take cap.toNat)).add t
      else ofBatch token (ts.take cap.toNat) := by
  have hcount := toNat_txCount_ofBatch_take token cap ts
  by_cases hroom : ts.length < cap.toNat
  · have hlt : (ofBatch token (ts.take cap.toNat)).txCount < cap := by
      rw [UInt64.lt_iff_toNat_lt, hcount]
      omega
    rw [if_pos hlt, List.take_of_length_le (Nat.le_of_lt hroom),
      List.take_of_length_le (by simpa using Nat.succ_le_of_lt hroom), ofBatch_append_singleton]
  · have hnot : ¬ (ofBatch token (ts.take cap.toNat)).txCount < cap := by
      rw [UInt64.lt_iff_toNat_lt, hcount]
      omega
    rw [if_neg hnot, List.take_append_of_le_length (Nat.le_of_not_lt hroom)]

end FeeSummary

namespace Pool

/-- What a walk counts for a contract: nothing where it meets none of its transfers, and else the
first of them. -/
theorem find?_foldl_countFee (cap : UInt64) (ts : List Transfer) (contract : Address) :
    (ts.foldl (countFee cap) ∅).find? contract =
      if ∃ t ∈ ts, t.contract = contract then
        some (.ofBatch contract ((ts.filter fun t => t.contract = contract).take cap.toNat))
      else none := by
  induction ts using List.reverseRecOn with
  | nil => simp
  | append_singleton ts t ih =>
      rw [List.foldl_append, List.foldl_cons, List.foldl_nil, List.filter_append]
      by_cases hcontract : t.contract = contract
      swap
      · have hexists : (∃ u ∈ ts ++ [t], u.contract = contract) ↔
            ∃ u ∈ ts, u.contract = contract := by
          simp [or_and_right, exists_or, hcontract]
        rw [countFee, SortedMap.find?_insert_of_ne _ (Ne.symm hcontract), ih]
        simp only [hexists, List.filter_singleton, hcontract, decide_false, cond_false,
          List.append_nil]
      -- Before the first transfer of the contract, the empty sum stands for the missing entry.
      have hbefore : ((ts.foldl (countFee cap) ∅).find? contract).getD (.empty contract) =
          .ofBatch contract ((ts.filter fun t => t.contract = contract).take cap.toNat) := by
        rw [ih]
        split
        next => rfl
        next hnone =>
          have hnil : (ts.filter fun t => t.contract = contract) = [] := by
            apply List.filter_eq_nil_iff.2
            intro u hu hin
            exact hnone ⟨u, hu, by simpa using hin⟩
          rw [hnil, List.take_nil]
          rfl
      subst hcontract
      have hexists : ∃ u ∈ ts ++ [t], u.contract = t.contract := ⟨t, by simp, rfl⟩
      rw [if_pos hexists, countFee, SortedMap.find?_insert_self, hbefore]
      simp only [List.filter_singleton, decide_true, cond_true]
      rw [FeeSummary.ofBatch_take_append_singleton]

/-- The walk through the whole pool sums up the next batch of every contract, ascending. -/
theorem Filed.feeSummaries_eq {p : Pool} (h : p.Filed) {cap : UInt64} (hcap : cap ≠ 0) :
    p.feeSummaries cap = p.contracts.map fun contract => .ofBatch contract (p.batch contract cap) := by
  have hentries : ((p.walk .all).foldl (countFee cap) ∅).entries =
      p.contracts.map fun contract => (contract, .ofBatch contract (p.batch contract cap)) := by
    apply SortedMap.eq_of_mem_iff (SortedMap.ascending _)
    · exact List.pairwise_map.2 p.groups.ascending_keys
    · rintro ⟨contract, summary⟩
      have hmet : (∃ t ∈ p.walk .all, t.contract = contract) ↔ contract ∈ p.contracts :=
        h.mem_contracts_iff.symm
      rw [← SortedMap.find?_eq_some_iff, find?_foldl_countFee, h.filter_walk, ← batch]
      simp only [hmet, Option.ite_none_right_eq_some, Option.some.injEq, List.mem_map,
        Prod.mk.injEq]
      constructor
      · rintro ⟨hmem, hsummary⟩
        exact ⟨contract, hmem, rfl, hsummary⟩
      · rintro ⟨_, hmem, rfl, hsummary⟩
        exact ⟨hmem, hsummary⟩
  rw [feeSummaries, if_neg hcap, SortedMap.values, hentries, List.map_map]
  rfl

/-- A batch of a contract with transfers pending is not empty. -/
theorem one_le_txCount {p : Pool} {contract : Address} {cap : UInt64}
    (hcontract : contract ∈ p.contracts) (hcap : cap ≠ 0) :
    1 ≤ (FeeSummary.ofBatch contract (p.batch contract cap)).txCount := by
  obtain ⟨key, t, hfind⟩ := mem_contracts_iff.1 hcontract
  have hkey := FeeGroup.key_of_find?_eq_some hfind
  subst hkey
  have hwalk : 0 < (p.walk (.contract contract)).length :=
    List.length_pos_of_mem (mem_walk_contract_iff.2 hfind)
  have hpos : 0 < cap.toNat := UInt64.lt_iff_toNat_lt.1 (UInt64.pos_iff_ne_zero.2 hcap)
  rw [UInt64.le_iff_toNat_le, batch, FeeSummary.toNat_txCount_ofBatch_take]
  exact Nat.le_min.2 ⟨hpos, hwalk⟩

end Pool

namespace Store

/-- Where every transfer is filed under the contract of its fee, as it is in every store that
comes about by insertions, removals and calls, the one walk finds for each contract what a query
of that contract finds: it lists exactly the contracts with transfers pending, ascending, and
counts a transfer at least for each. -/
theorem one_walk_finds_every_batch :
    (∀ s : Store, Built s → s.pool.Filed) ∧
    ∀ (p : Pool) (cap : UInt64), p.Filed → 1 ≤ cap →
      (p.feeSummaries cap).map Except.ok =
          p.contracts.map (fun contract => p.feeSummary contract cap) ∧
        (p.feeSummaries cap).map FeeSummary.token = p.contracts ∧
        p.contracts.Pairwise (fun left right => compare left right = .lt) ∧
        (∀ contract, contract ∈ p.contracts ↔ ∃ t ∈ p, t.contract = contract) ∧
        ∀ summary ∈ p.feeSummaries cap, 1 ≤ summary.txCount := by
  refine ⟨fun s hbuilt => hbuilt.filed, fun p cap hfiled hone => ?_⟩
  have hcap : cap ≠ 0 := by
    rintro rfl
    contradiction
  rw [hfiled.feeSummaries_eq hcap]
  refine ⟨?_, ?_, p.groups.ascending_keys, fun contract => hfiled.mem_contracts_iff, ?_⟩
  · rw [List.map_map]
    apply List.map_congr_left
    intro contract _
    exact (hfiled.feeSummary_eq_ok contract cap).symm
  · rw [List.map_map]
    exact List.map_id'' (fun contract => FeeSummary.token_ofBatch contract _) _
  · intro summary hsummary
    obtain ⟨contract, hcontract, rfl⟩ := List.mem_map.1 hsummary
    exact Pool.one_le_txCount hcontract hcap

open Sample in
/-- The sample withdrawal is the only one of its contract, and the walk finds its fee. -/
theorem one_walk_finds_every_batch_of_sample :
    Built pending.store ∧ pending.pool.contracts = [contract] ∧
      (pending.pool.feeSummaries 100).map Except.ok = [pending.pool.feeSummary contract 100] ∧
      pending.pool.feeSummary contract 100 = .ok ⟨contract, 7, 1⟩ := by
  have hbuilt : Built pending.store :=
    (Built.start _).called (Step.submit env withdrawal funded rfl)
  have hcontracts : pending.pool.contracts = [contract] := by rfl
  obtain ⟨hfiled, hagree⟩ := one_walk_finds_every_batch
  obtain ⟨hsummaries, _⟩ := hagree pending.pool 100 (hfiled _ hbuilt) (by decide)
  rw [hcontracts] at hsummaries
  exact ⟨hbuilt, hcontracts, hsummaries, by rfl⟩

end Store

end WithdrawalPool
