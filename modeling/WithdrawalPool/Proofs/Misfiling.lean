/-
Transfers that are filed under a contract that is not theirs.  The walk that sums up a batch ends
at the first such transfer that it meets, and it meets none past the cap.  So a transfer that is
filed wrong is reported exactly if it would be counted.
-/
import WithdrawalPool.Proofs.BestBatch

namespace WithdrawalPool

namespace FeeSummary

variable {token : Address} {batch : List Transfer} {s : FeeSummary}

theorem addBatch_eq_ok_iff :
    (empty token).addBatch batch = .ok s ↔
      (∀ t ∈ batch, t.fee.contract = token) ∧ s = ofBatch token batch := by
  constructor
  · intro h
    unfold addBatch at h
    split at h
    next => contradiction
    next hnone =>
      have hcontracts : ∀ t ∈ batch, t.fee.contract = token := by
        intro t ht
        have hpassed : ¬ decide (t.fee.contract ≠ token) = true :=
          List.find?_eq_none.1 hnone t ht
        simpa using hpassed
      exact ⟨hcontracts, (Except.ok.inj h).symm⟩
  · rintro ⟨hcontracts, rfl⟩
    exact addBatch_empty hcontracts

/-- The first transfer of a batch that is on another contract is the one that is blamed. -/
theorem addBatch_eq_error_iff {e : AbortError} :
    (empty token).addBatch batch = .error e ↔
      ∃ before t after, batch = before ++ t :: after ∧
        (∀ u ∈ before, u.fee.contract = token) ∧ t.fee.contract ≠ token ∧
          e = .feeContractMismatch token.text t.fee.contract.text t.id := by
  have hfirst (t : Transfer) : (batch.find? fun u => u.fee.contract ≠ token) = some t ↔
      t.fee.contract ≠ token ∧
        ∃ before after, batch = before ++ t :: after ∧ ∀ u ∈ before, u.fee.contract = token := by
    simp [List.find?_eq_some_iff_append]
  constructor
  · intro h
    unfold addBatch at h
    split at h
    next t hfound =>
      obtain ⟨hother, before, after, hbatch, hbefore⟩ := (hfirst t).1 hfound
      exact ⟨before, t, after, hbatch, hbefore, hother, (Except.error.inj h).symm⟩
    next => contradiction
  · rintro ⟨before, t, after, hbatch, hbefore, hother, rfl⟩
    have hfound := (hfirst t).2 ⟨hother, before, after, hbatch, hbefore⟩
    have htoken : (empty token).token = token := rfl
    rw [addBatch, htoken, hfound]

/-- A summary is the one of a batch if its fees and its count are those of the batch. -/
theorem eq_ofBatch_iff (h : batch.length < UInt64.size) :
    s = ofBatch token batch ↔
      s.token = token ∧ s.totalFees = feesOf batch ∧ s.txCount.toNat = batch.length := by
  have hparts : ofBatch token batch =
      ⟨(ofBatch token batch).token, (ofBatch token batch).totalFees,
        (ofBatch token batch).txCount⟩ := rfl
  obtain ⟨other, fees, count⟩ := s
  rw [hparts, FeeSummary.mk.injEq, token_ofBatch, totalFees_ofBatch, ← UInt64.toNat_inj,
    toNat_txCount_ofBatch h]

end FeeSummary

namespace Pool

theorem length_batch_lt (p : Pool) (contract : Address) (cap : UInt64) :
    (p.batch contract cap).length < UInt64.size :=
  Nat.lt_of_le_of_lt (List.length_take_le _ _) cap.toNat_lt

/-- The keys go down along a walk through a contract. -/
theorem pairwise_key_walk (p : Pool) (contract : Address) :
    (p.walk (.contract contract)).Pairwise fun earlier later =>
      compare later.key earlier.key = .lt :=
  List.pairwise_reverse.2 (p.group contract).pairwise_key

/-- In any pool whatever, also one with transfers filed under contracts that are not theirs, a
query for the next batch of a contract reads the first `cap` transfers that are filed under the
contract, by descending fee and id.  It fails exactly if the fee of one of them is on another
contract, and then blames the first such transfer.  Otherwise it gives their fees and their
number. -/
theorem misfiled_reported_iff_counted (p : Pool) (contract : Address) (cap : UInt64) :
    ((p.walk (.contract contract)).Pairwise fun earlier later =>
        later.fee.amount < earlier.fee.amount ∨
          later.fee.amount = earlier.fee.amount ∧ later.id < earlier.id) ∧
      (∀ t, t ∈ p.walk (.contract contract) ↔ p.find? contract t.key = some t) ∧
      p.batch contract cap = (p.walk (.contract contract)).take cap.toNat ∧
      ((∃ e, p.feeSummary contract cap = .error e) ↔
        ∃ t ∈ p.batch contract cap, t.fee.contract ≠ contract) ∧
      (∀ e, p.feeSummary contract cap = .error e ↔
        ∃ before t after, p.batch contract cap = before ++ t :: after ∧
          (∀ u ∈ before, u.fee.contract = contract) ∧ t.fee.contract ≠ contract ∧
            e = .feeContractMismatch contract.text t.fee.contract.text t.id) ∧
      ∀ s, p.feeSummary contract cap = .ok s ↔
        (∀ t ∈ p.batch contract cap, t.fee.contract = contract) ∧ s.token = contract ∧
          s.totalFees = ((p.batch contract cap).map fun t => t.fee.amount).sum ∧
          s.txCount.toNat = (p.batch contract cap).length := by
  have hsummary := p.feeSummary_eq contract cap
  refine ⟨(p.pairwise_key_walk contract).imp FeeKey.lt_of_compare,
    fun t => mem_walk_contract_iff, rfl, ⟨?_, ?_⟩, fun e => ?_, fun s => ?_⟩
  · rintro ⟨e, he⟩
    rw [hsummary, FeeSummary.addBatch_eq_error_iff] at he
    obtain ⟨before, t, after, hbatch, _, hother, _⟩ := he
    exact ⟨t, by simp [hbatch], hother⟩
  · rintro ⟨t, ht, hother⟩
    cases hresult : p.feeSummary contract cap with
    | error e => exact ⟨e, rfl⟩
    | ok s =>
        rw [hsummary, FeeSummary.addBatch_eq_ok_iff] at hresult
        exact absurd (hresult.1 t ht) hother
  · rw [hsummary, FeeSummary.addBatch_eq_error_iff]
  · rw [hsummary, FeeSummary.addBatch_eq_ok_iff,
      FeeSummary.eq_ofBatch_iff (p.length_batch_lt contract cap)]
    rfl

end Pool

namespace Sample

/-- A transfer whose fee is on the contract of all zeros. -/
def stray : Transfer := { low with id := 3, fee := ⟨Address.zero, 8⟩ }

/-- The stray transfer is filed between the two that are in order. -/
def misfiled : Pool := both.place contract stray

end Sample

namespace Pool

open Sample in
/-- A batch of one holds the transfer with the higher fee, and a batch of two the stray one as
well. -/
theorem misfiled_reported_iff_counted_of_stray :
    misfiled.feeSummary contract 1 = .ok ⟨contract, 9, 1⟩ ∧
      misfiled.feeSummary contract 2 =
        .error (.feeContractMismatch contract.text Address.zero.text 3) := by
  have hone : misfiled.batch contract 1 = [high] := by decide +kernel
  have htwo : misfiled.batch contract 2 = [high, stray] := by decide +kernel
  obtain ⟨_, _, _, _, _, hcounted⟩ := misfiled_reported_iff_counted misfiled contract 1
  obtain ⟨_, _, _, _, hblamed, _⟩ := misfiled_reported_iff_counted misfiled contract 2
  rw [hone] at hcounted
  rw [htwo] at hblamed
  refine ⟨(hcounted _).2 ⟨by decide, rfl, rfl, rfl⟩, (hblamed _).2 ⟨[high], stray, [], rfl, ?_⟩⟩
  exact ⟨by decide, by decide, rfl⟩

end Pool

end WithdrawalPool
