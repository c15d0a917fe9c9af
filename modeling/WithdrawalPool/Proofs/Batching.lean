/-
What the next batch of a contract earns.  The walk that sums it up ends at the cap, or at the
first transfer that is on another contract, so the answer depends on the transfers that the batch
would hold and on no others.
-/
import WithdrawalPool.Pool.Fees
import WithdrawalPool.Proofs.Filing

namespace WithdrawalPool

namespace FeeSummary

/-- Counts the transfers of a batch, unless one of them is on another contract. -/
def addBatch (s : FeeSummary) (batch : List Transfer) : Except AbortError FeeSummary :=
  match batch.find? fun t => t.fee.contract ≠ s.token with
  | some t => .error (.feeContractMismatch s.token.text t.fee.contract.text t.id)
  | none => .ok (batch.foldl add s)

theorem addBatch_cons_of_ne {s : FeeSummary} {t : Transfer} (h : t.fee.contract ≠ s.token)
    (batch : List Transfer) :
    s.addBatch (t :: batch) =
      .error (.feeContractMismatch s.token.text t.fee.contract.text t.id) := by
  simp [addBatch, h]

theorem addBatch_cons_of_eq {s : FeeSummary} {t : Transfer} (h : t.fee.contract = s.token)
    (batch : List Transfer) : s.addBatch (t :: batch) = (s.add t).addBatch batch := by
  have hfind : ((t :: batch).find? fun u => u.fee.contract ≠ s.token) =
      batch.find? fun u => u.fee.contract ≠ (s.add t).token :=
    List.find?_cons_of_neg (by simpa using h)
  rw [addBatch, hfind]
  rfl

/-- The fees of the transfers of a batch. -/
def ofBatch (token : Address) (batch : List Transfer) : FeeSummary :=
  batch.foldl add (empty token)

theorem addBatch_empty {token : Address} {batch : List Transfer}
    (h : ∀ t ∈ batch, t.contract = token) :
    (empty token).addBatch batch = .ok (ofBatch token batch) := by
  have hnone : (batch.find? fun t => t.fee.contract ≠ (empty token).token) = none := by
    apply List.find?_eq_none.2
    intro t ht
    have hcontract : t.fee.contract = token := h t ht
    simp [hcontract, empty]
  rw [addBatch, hnone]
  rfl

theorem toNat_txCount_add {s : FeeSummary} (h : s.txCount.toNat + 1 < UInt64.size)
    (t : Transfer) : (s.add t).txCount.toNat = s.txCount.toNat + 1 := by
  rw [add, UInt64.toNat_add]
  exact Nat.mod_eq_of_lt h

end FeeSummary

namespace Pool

/-- The transfers that the next batch of a contract would hold. -/
def batch (p : Pool) (contract : Address) (cap : UInt64) : List Transfer :=
  (p.walk (.contract contract)).take cap.toNat

/-- The visitor that sums up a batch. -/
def countChecked (cap : UInt64) :
    Except AbortError FeeSummary → Transfer → ForInStep (Except AbortError FeeSummary)
  | .ok s, t => s.addChecked cap t
  | .error e, _ => .done (.error e)

/-- A sum that has room for `n` more transfers is the sum over the next `n` of them. -/
theorem foldUntil_countChecked {cap : UInt64} {s : FeeSummary} {n : Nat} (hn : 0 < n)
    (hroom : s.txCount.toNat + n = cap.toNat) (ts : List Transfer) :
    foldUntil (countChecked cap) (.ok s) ts = s.addBatch (ts.take n) := by
  induction ts generalizing s n with
  | nil => simp [foldUntil, FeeSummary.addBatch]
  | cons t rest ih =>
      obtain ⟨m, rfl⟩ := Nat.exists_eq_add_of_lt hn
      have hcap : cap.toNat < UInt64.size := cap.toNat_lt
      have hcount : (s.add t).txCount.toNat = s.txCount.toNat + 1 :=
        FeeSummary.toNat_txCount_add (by omega) t
      simp only [Nat.zero_add, List.take_succ_cons, foldUntil, countChecked,
        FeeSummary.addChecked]
      by_cases hcontract : t.fee.contract = s.token
      swap
      · rw [FeeSummary.addBatch_cons_of_ne hcontract]
        simp [hcontract]
      rw [FeeSummary.addBatch_cons_of_eq hcontract]
      by_cases hfull : (s.add t).txCount = cap
      · obtain rfl : m = 0 := by
          rw [hfull] at hcount
          omega
        simp [hcontract, hfull, FeeSummary.addBatch]
      · have hm : 0 < m := by
          by_contra hzero
          exact hfull (UInt64.toNat_inj.1 (by omega))
        simp only [hcontract, ne_eq, not_true_eq_false, ↓reduceIte, hfull]
        exact ih hm (by omega)

theorem feeSummary_eq (p : Pool) (contract : Address) (cap : UInt64) :
    p.feeSummary contract cap = (FeeSummary.empty contract).addBatch (p.batch contract cap) := by
  unfold feeSummary
  split
  next h =>
      subst h
      rfl
  next h =>
      have hpos : 0 < cap.toNat := UInt64.lt_iff_toNat_lt.1 (UInt64.pos_iff_ne_zero.2 h)
      exact foldUntil_countChecked hpos (Nat.zero_add _) _

/-- Where every transfer is filed under its contract, the next batch has its fees. -/
theorem Filed.feeSummary_eq_ok {p : Pool} (h : p.Filed) (contract : Address) (cap : UInt64) :
    p.feeSummary contract cap =
      .ok (.ofBatch contract (p.batch contract cap)) := by
  rw [feeSummary_eq]
  apply FeeSummary.addBatch_empty
  intro t ht
  exact h.contract_of_mem_walk (List.mem_of_mem_take ht)

end Pool

end WithdrawalPool
