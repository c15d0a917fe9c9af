/-
The transfers of a pool up to their order.  Filing a transfer adds it to the walk through the
whole pool, taking it out removes it, and neither touches any other transfer.
-/
import Mathlib.Data.List.Perm.Basic
import WithdrawalPool.Pool.Walk

namespace WithdrawalPool

universe u v

namespace SortedMap

variable {κ : Type u} {α : Type v} [Ord κ] [Std.LawfulEqOrd κ]

omit [Std.LawfulEqOrd κ] in
theorem nodup_keys [Std.ReflOrd κ] (m : SortedMap κ α) : m.keys.Nodup := by
  apply List.Pairwise.imp _ m.ascending_keys
  intro left right hlt heq
  subst heq
  have hself : compare left left = .eq := Std.ReflCmp.compare_self
  rw [hself] at hlt
  contradiction

omit [Std.LawfulEqOrd κ] in
theorem nodup_entries [Std.ReflOrd κ] (m : SortedMap κ α) : m.entries.Nodup :=
  List.Pairwise.of_map Prod.fst (fun _ _ hne heq => hne (congrArg Prod.fst heq)) m.nodup_keys

theorem perm_entries_erase {m : SortedMap κ α} {key : κ} {a : α} (h : m.find? key = some a) :
    m.entries.Perm ((key, a) :: (m.erase key).entries) := by
  have habsent : (key, a) ∉ (m.erase key).entries := by
    intro hmem
    exact (mem_entries_erase.1 hmem).2 rfl
  apply (List.perm_ext_iff_of_nodup m.nodup_entries
    (List.nodup_cons.2 ⟨habsent, (m.erase key).nodup_entries⟩)).2
  rintro ⟨k, b⟩
  rw [List.mem_cons, mem_entries_erase]
  constructor
  · intro hmem
    by_cases hk : k = key
    · subst hk
      have hb : some b = some a := (find?_eq_some_iff.2 hmem).symm.trans h
      exact Or.inl (by rw [Option.some.inj hb])
    · exact Or.inr ⟨hmem, hk⟩
  · rintro (heq | ⟨hmem, _⟩)
    · rw [heq]
      exact find?_eq_some_iff.1 h
    · exact hmem

theorem erase_of_find?_eq_none [Std.TransOrd κ] {m : SortedMap κ α} {key : κ}
    (h : m.find? key = none) : m.erase key = m := by
  apply ext_find?
  intro other
  by_cases hother : other = key
  · rw [hother, find?_erase_self, h]
  · exact find?_erase_of_ne m hother

theorem erase_insert [Std.TransOrd κ] (m : SortedMap κ α) (key : κ) (a : α) :
    (m.insert key a).erase key = m.erase key := by
  apply ext_find?
  intro other
  by_cases hother : other = key
  · rw [hother, find?_erase_self, find?_erase_self]
  · rw [find?_erase_of_ne _ hother, find?_erase_of_ne _ hother, find?_insert_of_ne m hother]

theorem perm_entries_insert [Std.TransOrd κ] (m : SortedMap κ α) (key : κ) (a : α) :
    (m.insert key a).entries.Perm ((key, a) :: (m.erase key).entries) := by
  have hperm := perm_entries_erase (m.find?_insert_self key a)
  rwa [erase_insert] at hperm

end SortedMap

namespace FeeGroup

theorem mem_toList_iff {g : FeeGroup} {t : Transfer} :
    t ∈ g.toList ↔ g.find? t.key = some t := by
  constructor
  · intro h
    obtain ⟨e, he, rfl⟩ := List.mem_map.1 h
    rw [← g.keyed e he]
    exact SortedMap.find?_eq_some_iff.2 he
  · intro h
    exact List.mem_map.2 ⟨_, SortedMap.find?_eq_some_iff.1 h, rfl⟩

theorem perm_toList_insert {g : FeeGroup} {t : Transfer} (h : g.find? t.key = none) :
    (g.insert t).toList.Perm (t :: g.toList) := by
  have hperm := (SortedMap.perm_entries_insert g.transfers t.key t).map Prod.snd
  rwa [SortedMap.erase_of_find?_eq_none h] at hperm

theorem perm_toList_erase {g : FeeGroup} {key : FeeKey} {t : Transfer}
    (h : g.find? key = some t) : g.toList.Perm (t :: (g.erase key).toList) :=
  (SortedMap.perm_entries_erase h).map Prod.snd

end FeeGroup

namespace Pool

/-- The transfers pending in a pool, under whatever contract they are filed. -/
instance : Membership Transfer Pool := ⟨fun p t => t ∈ p.walk .all⟩

theorem mem_def {p : Pool} {t : Transfer} : t ∈ p ↔ t ∈ p.walk .all := Iff.rfl

theorem walk_all_perm (p : Pool) :
    (p.walk .all).Perm (p.groups.entries.flatMap fun e => e.2.toList) := by
  have hgroups : (p.groups.values.reverse.flatMap fun g => g.toList.reverse).Perm
      (p.groups.values.flatMap fun g => g.toList) :=
    (List.reverse_perm _).flatMap fun g _ => List.reverse_perm g.toList
  rw [SortedMap.values, List.flatMap_map] at hgroups
  exact hgroups

theorem setGroup_empty_groups (p : Pool) (contract : Address) :
    (p.setGroup contract ∅).groups = p.groups.erase contract := by
  simp [setGroup]

/-- The transfers filed under one contract, and then all others. -/
theorem walk_all_perm_group (p : Pool) (contract : Address) :
    (p.walk .all).Perm
      ((p.group contract).toList ++ (p.setGroup contract ∅).walk .all) := by
  apply p.walk_all_perm.trans
  apply List.Perm.trans _ ((p.setGroup contract ∅).walk_all_perm.symm.append_left _)
  rw [setGroup_empty_groups]
  cases h : p.groups.find? contract with
  | none =>
      rw [SortedMap.erase_of_find?_eq_none h]
      simp only [group, h, Option.getD_none]
      exact List.Perm.refl _
  | some g =>
      simp only [group, h, Option.getD_some]
      exact (SortedMap.perm_entries_erase h).flatMap_right _

theorem setGroup_setGroup_empty (p : Pool) (contract : Address) (g : FeeGroup) :
    (p.setGroup contract g).setGroup contract ∅ = p.setGroup contract ∅ := by
  apply ext_group
  intro other
  by_cases h : other = contract
  · rw [h, group_setGroup_self, group_setGroup_self]
  · rw [group_setGroup_of_ne _ h, group_setGroup_of_ne _ h, group_setGroup_of_ne _ h]

theorem walk_setGroup_perm (p : Pool) (contract : Address) (g : FeeGroup) :
    ((p.setGroup contract g).walk .all).Perm
      (g.toList ++ (p.setGroup contract ∅).walk .all) := by
  have h := (p.setGroup contract g).walk_all_perm_group contract
  rwa [group_setGroup_self, setGroup_setGroup_empty] at h

/-- A transfer that is filed at a free place joins the others. -/
theorem walk_place_perm {p : Pool} {contract : Address} {t : Transfer}
    (h : p.find? contract t.key = none) :
    ((p.place contract t).walk .all).Perm (t :: p.walk .all) := by
  apply (p.walk_setGroup_perm contract _).trans
  apply ((FeeGroup.perm_toList_insert h).append_right _).trans
  exact (p.walk_all_perm_group contract).symm.cons t

@[simp] theorem find?_place_self (p : Pool) (contract : Address) (t : Transfer) :
    (p.place contract t).find? contract t.key = some t := by
  rw [find?, place, group_setGroup_self, FeeGroup.find?_insert_self]

theorem find?_place_of_ne (p : Pool) {contract other : Address} {t : Transfer} {key : FeeKey}
    (h : other = contract → key ≠ t.key) :
    (p.place contract t).find? other key = p.find? other key := by
  by_cases hother : other = contract
  · subst hother
    rw [find?, place, group_setGroup_self, FeeGroup.find?_insert_of_ne _ (h rfl)]
    rfl
  · rw [find?, place, group_setGroup_of_ne _ hother]
    rfl

theorem insert_eq_ok_iff {p p' : Pool} {t : Transfer} :
    p.insert t = .ok p' ↔ p.find? t.contract t.key = none ∧ p' = p.place t.contract t := by
  unfold insert
  cases p.find? t.contract t.key with
  | none => simp [eq_comm]
  | some other => simp

theorem insert_eq_error_iff {p : Pool} {t : Transfer} {e : PoolError} :
    p.insert t = .error e ↔
      (∃ other, p.find? t.contract t.key = some other) ∧ e = .alreadyPending t.id := by
  unfold insert
  cases p.find? t.contract t.key with
  | none => simp
  | some other => simp [eq_comm]

theorem remove_eq_ok_iff {p p' : Pool} {fee : TokenAmount} {id : UInt64} {t : Transfer} :
    p.remove fee id = .ok (t, p') ↔
      p.find? fee.contract ⟨fee.amount, id⟩ = some t ∧
        p' = p.setGroup fee.contract ((p.group fee.contract).erase ⟨fee.amount, id⟩) := by
  unfold remove
  cases p.find? fee.contract ⟨fee.amount, id⟩ with
  | none => simp
  | some found => simp [eq_comm]

theorem remove_eq_error_iff {p : Pool} {fee : TokenAmount} {id : UInt64} {e : PoolError} :
    p.remove fee id = .error e ↔
      p.find? fee.contract ⟨fee.amount, id⟩ = none ∧ e = .unknownTransfer id := by
  unfold remove
  cases p.find? fee.contract ⟨fee.amount, id⟩ with
  | none => simp [eq_comm]
  | some found => simp

theorem key_of_remove_eq_ok {p p' : Pool} {fee : TokenAmount} {id : UInt64} {t : Transfer}
    (h : p.remove fee id = .ok (t, p')) : t.key = ⟨fee.amount, id⟩ :=
  FeeGroup.key_of_find?_eq_some (remove_eq_ok_iff.1 h).1

theorem find?_of_remove_eq_ok {p p' : Pool} {fee : TokenAmount} {id : UInt64} {t : Transfer}
    (h : p.remove fee id = .ok (t, p')) : p'.find? fee.contract ⟨fee.amount, id⟩ = none := by
  obtain ⟨_, rfl⟩ := remove_eq_ok_iff.1 h
  rw [find?, group_setGroup_self, FeeGroup.find?_erase_self]

theorem find?_remove_of_ne {p p' : Pool} {fee : TokenAmount} {id : UInt64} {t : Transfer}
    (h : p.remove fee id = .ok (t, p')) {contract : Address} {key : FeeKey}
    (hne : contract = fee.contract → key ≠ ⟨fee.amount, id⟩) :
    p'.find? contract key = p.find? contract key := by
  obtain ⟨_, rfl⟩ := remove_eq_ok_iff.1 h
  by_cases hcontract : contract = fee.contract
  · subst hcontract
    rw [find?, group_setGroup_self, FeeGroup.find?_erase_of_ne _ (hne rfl)]
    rfl
  · rw [find?, group_setGroup_of_ne _ hcontract]
    rfl

/-- Taking a transfer out leaves the others. -/
theorem walk_remove_perm {p p' : Pool} {fee : TokenAmount} {id : UInt64} {t : Transfer}
    (h : p.remove fee id = .ok (t, p')) : (p.walk .all).Perm (t :: p'.walk .all) := by
  obtain ⟨hfound, rfl⟩ := remove_eq_ok_iff.1 h
  apply (p.walk_all_perm_group fee.contract).trans
  apply ((FeeGroup.perm_toList_erase hfound).append_right _).trans
  exact (p.walk_setGroup_perm fee.contract _).symm.cons t

/-- Taking a transfer out of the place that it was filed at leaves the pool as it was before. -/
theorem remove_place {p : Pool} {t : Transfer} (h : p.find? t.contract t.key = none) :
    (p.place t.contract t).remove t.fee t.id = .ok (t, p) := by
  refine remove_eq_ok_iff.2 ⟨find?_place_self p t.contract t, ?_⟩
  have hgroup : ((p.place t.contract t).group t.contract).erase t.key = p.group t.contract := by
    rw [place, group_setGroup_self]
    apply FeeGroup.ext
    exact (SortedMap.erase_insert _ _ _).trans (SortedMap.erase_of_find?_eq_none h)
  apply ext_group
  intro contract
  by_cases hcontract : contract = t.fee.contract
  · rw [hcontract, group_setGroup_self]
    exact hgroup.symm
  · rw [group_setGroup_of_ne _ hcontract]
    exact (group_setGroup_of_ne p hcontract _).symm

theorem mem_of_find?_eq_some {p : Pool} {contract : Address} {key : FeeKey} {t : Transfer}
    (h : p.find? contract key = some t) : t ∈ p := by
  have hkey := FeeGroup.key_of_find?_eq_some h
  subst hkey
  have hgroup : t ∈ (p.group contract).toList := FeeGroup.mem_toList_iff.2 h
  exact (p.walk_all_perm_group contract).symm.subset (List.mem_append_left _ hgroup)

/-- What is pending is filed somewhere, at the place that its fee and its id give it. -/
theorem exists_find?_of_mem {p : Pool} {t : Transfer} (h : t ∈ p) :
    ∃ contract, p.find? contract t.key = some t := by
  obtain ⟨⟨contract, g⟩, he, ht⟩ := List.mem_flatMap.1 (p.walk_all_perm.subset h)
  refine ⟨contract, ?_⟩
  rw [find?, group, SortedMap.find?_eq_some_iff.2 he]
  exact FeeGroup.mem_toList_iff.1 ht

@[simp] theorem not_mem_empty (t : Transfer) : t ∉ (∅ : Pool) := by
  intro h
  cases h

theorem eq_empty_of_forall_not_mem {p : Pool} (h : ∀ t, t ∉ p) : p = ∅ := by
  apply ext_group
  intro contract
  apply FeeGroup.ext_find?
  intro key
  cases hfind : (p.group contract).find? key with
  | none => rfl
  | some t => exact absurd (mem_of_find?_eq_some hfind) (h t)

theorem mem_place_iff {p : Pool} {contract : Address} {t u : Transfer}
    (h : p.find? contract t.key = none) : u ∈ p.place contract t ↔ u = t ∨ u ∈ p := by
  rw [mem_def, (walk_place_perm h).mem_iff, List.mem_cons]
  rfl

theorem mem_remove_iff {p p' : Pool} {fee : TokenAmount} {id : UInt64} {t u : Transfer}
    (h : p.remove fee id = .ok (t, p')) : u ∈ p ↔ u = t ∨ u ∈ p' := by
  rw [mem_def, (walk_remove_perm h).mem_iff, List.mem_cons]
  rfl

theorem getById_eq_ok {p : Pool} {id : UInt64} {t : Transfer} (h : p.getById id = .ok t) :
    t ∈ p ∧ t.id = id := by
  unfold getById at h
  split at h
  next found hfound =>
    cases h
    exact ⟨List.mem_of_find?_eq_some hfound, by simpa using List.find?_some hfound⟩
  next => cases h

theorem getById_eq_error_iff {p : Pool} {id : UInt64} {e : PoolError} :
    p.getById id = .error e ↔ (∀ t ∈ p, t.id ≠ id) ∧ e = .unknownTransfer id := by
  unfold getById
  split
  next found hfound =>
    have hid : found.id = id := by simpa using List.find?_some hfound
    simp only [reduceCtorEq, false_iff, not_and]
    intro hnone
    exact absurd hid (hnone found (List.mem_of_find?_eq_some hfound))
  next hnone =>
    have habsent : ∀ t ∈ p, t.id ≠ id := by
      intro t ht
      simpa using List.find?_eq_none.1 hnone t ht
    rw [Except.error.injEq, and_iff_right habsent, eq_comm]

end Pool

end WithdrawalPool
