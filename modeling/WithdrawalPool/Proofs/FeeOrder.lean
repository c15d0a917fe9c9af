/-
What the next batches earn depends on the fees that are pending and on nothing else.  A walk
through a contract meets its fees in descending order, so the ids that break ties among equal
fees change which transfer a batch holds and not what it earns.
-/
import WithdrawalPool.Proofs.Summaries

namespace WithdrawalPool

namespace FeeSummary

/-- Counts a transfer of which only the fee is known. -/
def addFee (s : FeeSummary) (fee : TokenAmount) : FeeSummary :=
  { s with totalFees := s.totalFees + fee.amount, txCount := s.txCount + 1 }

theorem ofBatch_eq_foldl_addFee (token : Address) (batch : List Transfer) :
    ofBatch token batch = (batch.map Transfer.fee).foldl addFee (empty token) := by
  rw [List.foldl_map]
  rfl

theorem ofBatch_take_congr {token : Address} {ts us : List Transfer}
    (h : ts.map Transfer.fee = us.map Transfer.fee) (n : Nat) :
    ofBatch token (ts.take n) = ofBatch token (us.take n) := by
  rw [ofBatch_eq_foldl_addFee, ofBatch_eq_foldl_addFee, List.map_take, List.map_take, h]

end FeeSummary

theorem FeeKey.fee_le_of_lt {left right : FeeKey} (h : compare left right = .lt) :
    left.fee ≤ right.fee := by
  rcases FeeKey.lt_of_compare h with hfee | ⟨hfee, _⟩
  · exact Nat.le_of_lt hfee
  · exact Nat.le_of_eq hfee

/-- The keys of a group ascend. -/
theorem FeeGroup.pairwise_key (g : FeeGroup) :
    g.toList.Pairwise fun left right => compare left.key right.key = .lt := by
  apply List.pairwise_map.2
  apply g.transfers.ascending.imp_of_mem
  intro left right hleft hright hlt
  rwa [g.keyed left hleft, g.keyed right hright] at hlt

/-- The fees of a group ascend. -/
theorem FeeGroup.pairwise_fee (g : FeeGroup) :
    g.toList.Pairwise fun left right => left.fee.amount ≤ right.fee.amount :=
  g.pairwise_key.imp FeeKey.fee_le_of_lt

theorem map_fee_filter (contract : Address) (ts : List Transfer) :
    (ts.filter fun t => t.contract = contract).map Transfer.fee =
      (ts.map Transfer.fee).filter fun fee => fee.contract = contract := by
  rw [List.filter_map]
  rfl

namespace Pool

/-- The pools have the same fees pending, each as often. -/
def SameFees (p q : Pool) : Prop :=
  ((p.walk .all).map Transfer.fee).Perm ((q.walk .all).map Transfer.fee)

variable {p q : Pool}

theorem pairwise_fee_walk (p : Pool) (contract : Address) :
    ((p.walk (.contract contract)).map Transfer.fee).Pairwise
      fun left right => right.amount ≤ left.amount :=
  List.pairwise_map.2 (List.pairwise_reverse.2 (p.group contract).pairwise_fee)

/-- Walks through a contract meet the same fees in the same order, as nothing but the order of
the amounts is left to tell fees on one contract apart. -/
theorem SameFees.map_fee_walk (h : p.SameFees q) (hp : p.Filed) (hq : q.Filed)
    (contract : Address) :
    (p.walk (.contract contract)).map Transfer.fee =
      (q.walk (.contract contract)).map Transfer.fee := by
  have hperm : ((p.walk (.contract contract)).map Transfer.fee).Perm
      ((q.walk (.contract contract)).map Transfer.fee) := by
    rw [← hp.filter_walk, ← hq.filter_walk, map_fee_filter, map_fee_filter]
    exact h.filter _
  have hcontract {r : Pool} (hr : r.Filed) {fee : TokenAmount}
      (hfee : fee ∈ (r.walk (.contract contract)).map Transfer.fee) :
      fee.contract = contract := by
    obtain ⟨t, ht, rfl⟩ := List.mem_map.1 hfee
    exact hr.contract_of_mem_walk ht
  apply hperm.eq_of_pairwise _ (p.pairwise_fee_walk contract) (q.pairwise_fee_walk contract)
  intro left right hleft hright hge hle
  exact TokenAmount.ext ((hcontract hp hleft).trans (hcontract hq hright).symm)
    (Nat.le_antisymm hle hge)

theorem SameFees.feeSummary (h : p.SameFees q) (hp : p.Filed) (hq : q.Filed)
    (contract : Address) (cap : UInt64) :
    p.feeSummary contract cap = q.feeSummary contract cap := by
  rw [hp.feeSummary_eq_ok, hq.feeSummary_eq_ok]
  congr 1
  exact FeeSummary.ofBatch_take_congr (h.map_fee_walk hp hq contract) _

theorem SameFees.feeSummaries (h : p.SameFees q) (hp : p.Filed) (hq : q.Filed) (cap : UInt64) :
    p.feeSummaries cap = q.feeSummaries cap := by
  have hmet (contract : Address) :
      (∃ t ∈ p.walk .all, t.contract = contract) ↔
        ∃ t ∈ q.walk .all, t.contract = contract := by
    have hcontracts : ((p.walk .all).map Transfer.contract).Perm
        ((q.walk .all).map Transfer.contract) := by
      have hmap := h.map TokenAmount.contract
      rwa [List.map_map, List.map_map] at hmap
    rw [← List.mem_map, ← List.mem_map, hcontracts.mem_iff]
  have hcounts : (p.walk .all).foldl (countFee cap) ∅ = (q.walk .all).foldl (countFee cap) ∅ := by
    apply SortedMap.ext_find?
    intro contract
    rw [find?_foldl_countFee, find?_foldl_countFee, hp.filter_walk, hq.filter_walk,
      FeeSummary.ofBatch_take_congr (h.map_fee_walk hp hq contract)]
    simp only [hmet]
  rw [Pool.feeSummaries, Pool.feeSummaries, hcounts]

end Pool

end WithdrawalPool
