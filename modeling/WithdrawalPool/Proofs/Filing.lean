/-
Where the transfers of a pool are filed.  Adding a transfer files it under the contract of its
fee, and taking one out moves no other.  Where all are filed so, the transfers of a contract are
the same whether the walk covers the contract alone or the whole pool.
-/
import WithdrawalPool.Proofs.Contents

namespace WithdrawalPool

universe u v

theorem flatMap_filter {α : Type u} {β : Type v} (q : α → Bool) (f : α → List β) (l : List α) :
    (l.filter q).flatMap f = l.flatMap fun a => if q a then f a else [] := by
  induction l with
  | nil => rfl
  | cons a rest ih =>
      cases hq : q a <;> simp [hq, ih]

namespace SortedMap

variable {κ : Type u} {α : Type v} [Ord κ] [Std.LawfulEqOrd κ] [Std.TransOrd κ] [DecidableEq κ]

/-- At most one entry has a given key. -/
theorem filter_entries_eq (m : SortedMap κ α) (key : κ) :
    m.entries.filter (fun e => e.1 = key) = ((m.find? key).map fun a => (key, a)).toList := by
  apply eq_of_mem_iff (List.Pairwise.sublist List.filter_sublist m.ascending)
  · cases m.find? key with
    | none => exact List.Pairwise.nil
    | some a => exact List.pairwise_singleton _ _
  · rintro ⟨k, a⟩
    simp only [List.mem_filter, decide_eq_true_eq, Option.mem_toList, Option.map_eq_some_iff,
      Prod.mk.injEq, find?_eq_some_iff]
    constructor
    · rintro ⟨hmem, rfl⟩
      exact ⟨a, hmem, rfl, rfl⟩
    · rintro ⟨b, hmem, rfl, rfl⟩
      exact ⟨hmem, rfl⟩

end SortedMap

namespace Pool

/-- Every transfer is filed under the contract of its fee. -/
def Filed (p : Pool) : Prop :=
  ∀ contract key t, p.find? contract key = some t → t.contract = contract

variable {p p' : Pool} {t : Transfer} {contract : Address}

theorem filed_empty : (∅ : Pool).Filed := by
  intro contract key t h
  cases h

theorem Filed.place (h : p.Filed) (t : Transfer) : (p.place t.contract t).Filed := by
  intro contract key u hfind
  by_cases hplace : contract = t.contract ∧ key = t.key
  · rw [hplace.1, hplace.2, find?_place_self] at hfind
    rw [← Option.some.inj hfind, hplace.1]
  · rw [find?_place_of_ne _ (not_and.1 hplace)] at hfind
    exact h contract key u hfind

theorem Filed.insert (h : p.Filed) (hinsert : p.insert t = .ok p') : p'.Filed := by
  obtain ⟨_, rfl⟩ := insert_eq_ok_iff.1 hinsert
  exact h.place t

theorem Filed.remove (h : p.Filed) {fee : TokenAmount} {id : UInt64}
    (hremove : p.remove fee id = .ok (t, p')) : p'.Filed := by
  intro contract key u hfind
  by_cases hplace : contract = fee.contract ∧ key = ⟨fee.amount, id⟩
  · rw [hplace.1, hplace.2, find?_of_remove_eq_ok hremove] at hfind
    contradiction
  · rw [find?_remove_of_ne hremove (not_and.1 hplace)] at hfind
    exact h contract key u hfind

theorem Filed.find?_of_mem (h : p.Filed) (ht : t ∈ p) : p.find? t.contract t.key = some t := by
  obtain ⟨contract, hfind⟩ := exists_find?_of_mem ht
  rwa [h contract t.key t hfind]

/-- What is found in a pool where all is filed under its contract is what a removal takes. -/
theorem Filed.taken_eq (h : p.Filed) {taken : Transfer} (ht : t ∈ p)
    (hremove : p.remove t.fee t.id = .ok (taken, p')) : taken = t := by
  have hfind : p.find? t.contract t.key = some taken := (remove_eq_ok_iff.1 hremove).1
  rw [h.find?_of_mem ht] at hfind
  exact (Option.some.inj hfind).symm

/-- A removal names the fee and the id of what it takes. -/
theorem Filed.fee_of_remove (h : p.Filed) {fee : TokenAmount} {id : UInt64}
    (hremove : p.remove fee id = .ok (t, p')) : fee = t.fee ∧ id = t.id := by
  have hcontract : t.fee.contract = fee.contract :=
    h _ _ _ (remove_eq_ok_iff.1 hremove).1
  obtain ⟨hamount, hid⟩ := FeeKey.mk.inj (key_of_remove_eq_ok hremove)
  exact ⟨(TokenAmount.ext hcontract hamount).symm, hid.symm⟩

theorem exists_find?_of_ne_empty {g : FeeGroup} (h : g ≠ ∅) : ∃ key t, g.find? key = some t := by
  by_contra hnone
  apply h
  apply FeeGroup.ext_find?
  intro key
  cases hfind : g.find? key with
  | none => rfl
  | some t => exact absurd ⟨key, t, hfind⟩ hnone

/-- No group is empty, so a contract is listed exactly if something is filed under it. -/
theorem mem_contracts_iff : contract ∈ p.contracts ↔ ∃ key t, p.find? contract key = some t := by
  rw [contracts, SortedMap.keys, List.mem_map]
  constructor
  · rintro ⟨⟨contract, g⟩, he, rfl⟩
    obtain ⟨key, t, hfind⟩ := exists_find?_of_ne_empty (p.occupied _ he)
    refine ⟨key, t, ?_⟩
    rw [find?, group, SortedMap.find?_eq_some_iff.2 he]
    exact hfind
  · rintro ⟨key, t, hfind⟩
    rw [find?, group] at hfind
    cases hgroup : p.groups.find? contract with
    | none =>
        rw [hgroup] at hfind
        cases hfind
    | some g => exact ⟨(contract, g), SortedMap.find?_eq_some_iff.1 hgroup, rfl⟩

theorem Filed.mem_contracts_iff (h : p.Filed) :
    contract ∈ p.contracts ↔ ∃ t ∈ p, t.contract = contract := by
  rw [Pool.mem_contracts_iff]
  constructor
  · rintro ⟨key, t, hfind⟩
    exact ⟨t, mem_of_find?_eq_some hfind, h contract key t hfind⟩
  · rintro ⟨t, ht, rfl⟩
    exact ⟨t.key, t, h.find?_of_mem ht⟩

theorem mem_walk_contract_iff :
    t ∈ p.walk (.contract contract) ↔ p.find? contract t.key = some t := by
  rw [walk, List.mem_reverse, FeeGroup.mem_toList_iff]
  rfl

theorem Filed.contract_of_mem_walk (h : p.Filed) (ht : t ∈ p.walk (.contract contract)) :
    t.contract = contract :=
  h contract t.key t (mem_walk_contract_iff.1 ht)

/-- A group is walked through as a whole: all of its transfers are on the contract, or none. -/
theorem Filed.filter_group (h : p.Filed) {e : Address × FeeGroup} (he : e ∈ p.groups.entries)
    (contract : Address) :
    e.2.toList.reverse.filter (fun t => t.contract = contract) =
      if e.1 = contract then e.2.toList.reverse else [] := by
  have hcontract : ∀ t ∈ e.2.toList.reverse, t.contract = e.1 := by
    intro t ht
    apply h e.1 t.key t
    rw [find?, group, SortedMap.find?_eq_some_iff.2 he]
    exact FeeGroup.mem_toList_iff.1 (List.mem_reverse.1 ht)
  split
  next heq =>
      apply List.filter_eq_self.2
      intro t ht
      simpa [heq] using hcontract t ht
  next hne =>
      apply List.filter_eq_nil_iff.2
      intro t ht
      simpa [hcontract t ht] using hne

/-- A walk through the whole pool meets the transfers of a contract in the order of a walk
through the contract alone. -/
theorem Filed.filter_walk (h : p.Filed) (contract : Address) :
    (p.walk .all).filter (fun t => t.contract = contract) = p.walk (.contract contract) := by
  have hgroups : p.walk .all = p.groups.entries.reverse.flatMap fun e => e.2.toList.reverse := by
    rw [walk, SortedMap.values, ← List.map_reverse, List.flatMap_map]
  have hfilter : (p.walk .all).filter (fun t => t.contract = contract) =
      (p.groups.entries.reverse.filter fun e => e.1 = contract).flatMap
        fun e => e.2.toList.reverse := by
    rw [hgroups, List.filter_flatMap, flatMap_filter]
    apply List.flatMap_congr
    intro e he
    simpa using h.filter_group (List.mem_reverse.1 he) contract
  rw [hfilter, List.filter_reverse, SortedMap.filter_entries_eq, walk, group]
  cases p.groups.find? contract with
  | none => rfl
  | some g => simp

end Pool

end WithdrawalPool
