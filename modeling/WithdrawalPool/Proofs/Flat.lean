/-
A pool as one map.  The groups of a pool keep in two steps what one map from places to transfers
keeps in one, where a place is a contract, a fee and an id.  A walk through the whole pool goes
through that map from its end to its beginning.
-/
import WithdrawalPool.Proofs.Filing

namespace WithdrawalPool

universe u v

/-- The first value that a search from the end finds is the one with the greatest key. -/
theorem SortedMap.find?_reverse_values {κ : Type u} {α : Type v} [Ord κ] [Std.LawfulEqOrd κ]
    {m : SortedMap κ α} {q : α → Bool} {a : α} (h : m.values.reverse.find? q = some a) :
    ∃ key, m.find? key = some a ∧ q a = true ∧
      ∀ other b, m.find? other = some b → q b = true → other ≠ key →
        compare other key = .lt := by
  rw [values, ← List.map_reverse, List.find?_map] at h
  obtain ⟨⟨key, b⟩, hfound, rfl⟩ := Option.map_eq_some_iff.1 h
  obtain ⟨hq, later, earlier, hentries, hlater⟩ := List.find?_eq_some_iff_append.1 hfound
  have hmem : ∀ e, e ∈ m.entries ↔ e ∈ later ∨ e = (key, b) ∨ e ∈ earlier := by
    intro e
    rw [← List.mem_reverse, hentries, List.mem_append, List.mem_cons]
  refine ⟨key, find?_eq_some_iff.2 ((hmem _).2 (Or.inr (Or.inl rfl))), hq, ?_⟩
  intro other c hother hqc hne
  rcases (hmem _).1 (find?_eq_some_iff.1 hother) with hin | heq | hin
  · have hnot := hlater _ hin
    simp [hqc] at hnot
  · exact absurd (congrArg Prod.fst heq) hne
  · have hdescending := List.pairwise_reverse.2 m.ascending
    rw [hentries] at hdescending
    exact (List.pairwise_cons.1 (List.pairwise_append.1 hdescending).2.1).1 _ hin

/-- Where in a pool a transfer is filed. -/
@[ext] structure Place where
  contract : Address
  key : FeeKey
deriving DecidableEq

namespace Place

/-- By contract, and by fee and id where the contracts are equal. -/
instance : Ord Place := ⟨compareLex (compareOn contract) (compareOn key)⟩

instance : Std.TransOrd Place :=
  inferInstanceAs (Std.TransCmp (compareLex (compareOn contract) (compareOn key)))

instance : Std.LawfulEqOrd Place where
  compare_self {a} :=
    show compareLex (compareOn contract) (compareOn key) a a = .eq from Std.ReflCmp.compare_self
  eq_of_compare {a b} h := by
    obtain ⟨hcontract, hkey⟩ := Ordering.then_eq_eq.1 h
    exact Place.ext
      (Std.LawfulEqCmp.eq_of_compare (show compare a.contract b.contract = .eq from hcontract))
      (Std.LawfulEqCmp.eq_of_compare (show compare a.key b.key = .eq from hkey))

theorem compare_of_lt {left right : Address} (h : compare left right = .lt)
    (first second : FeeKey) : compare (⟨left, first⟩ : Place) ⟨right, second⟩ = .lt := by
  change (compare left right).then (compare first second) = .lt
  rw [h]
  rfl

theorem compare_same (contract : Address) (first second : FeeKey) :
    compare (⟨contract, first⟩ : Place) ⟨contract, second⟩ = compare first second := by
  have hself : compare contract contract = .eq := Std.ReflCmp.compare_self
  change (compare contract contract).then (compare first second) = compare first second
  rw [hself]
  rfl

end Place

/-- The place that a transfer belongs in. -/
def Transfer.place (t : Transfer) : Place := ⟨t.contract, t.key⟩

/-- All transfers of a pool in one map. -/
abbrev FlatPool := SortedMap Place Transfer

namespace Pool

/-- The transfers of a group with their places. -/
def placed (e : Address × FeeGroup) : List (Place × Transfer) :=
  e.2.transfers.entries.map fun f => (⟨e.1, f.1⟩, f.2)

theorem ascending_flatMap_placed (p : Pool) : Ascending (p.groups.entries.flatMap placed) := by
  apply List.pairwise_flatMap.2
  constructor
  · intro e _
    apply List.pairwise_map.2
    apply e.2.transfers.ascending.imp
    intro left right hlt
    rw [Place.compare_same]
    exact hlt
  · apply p.groups.ascending.imp
    intro left right hlt x hx y hy
    obtain ⟨f, _, rfl⟩ := List.mem_map.1 hx
    obtain ⟨g, _, rfl⟩ := List.mem_map.1 hy
    exact Place.compare_of_lt hlt f.1 g.1

/-- A pool as one map, from the place of each transfer to the transfer. -/
def flat (p : Pool) : FlatPool := ⟨p.groups.entries.flatMap placed, p.ascending_flatMap_placed⟩

theorem find?_eq_some_iff {p : Pool} {contract : Address} {key : FeeKey} {t : Transfer} :
    p.find? contract key = some t ↔
      ∃ g, (contract, g) ∈ p.groups.entries ∧ (key, t) ∈ g.transfers.entries := by
  simp only [← SortedMap.find?_eq_some_iff, find?, group]
  cases p.groups.find? contract with
  | none => simp
  | some g => simp [FeeGroup.find?]

@[simp] theorem find?_flat (p : Pool) (place : Place) :
    p.flat.find? place = p.find? place.contract place.key := by
  apply Option.ext
  intro t
  rw [SortedMap.find?_eq_some_iff, find?_eq_some_iff, flat, List.mem_flatMap]
  constructor
  · rintro ⟨⟨contract, g⟩, he, hmem⟩
    obtain ⟨⟨key, u⟩, hf, heq⟩ := List.mem_map.1 hmem
    cases heq
    exact ⟨g, he, hf⟩
  · rintro ⟨g, he, hf⟩
    exact ⟨(place.contract, g), he, List.mem_map.2 ⟨(place.key, t), hf, rfl⟩⟩

theorem flat_injective {p q : Pool} (h : p.flat = q.flat) : p = q := by
  apply ext_group
  intro contract
  apply FeeGroup.ext_find?
  intro key
  change p.find? contract key = q.find? contract key
  rw [← p.find?_flat ⟨contract, key⟩, h, find?_flat]

@[simp] theorem flat_empty : (∅ : Pool).flat = ∅ := rfl

theorem flat_place (p : Pool) (contract : Address) (t : Transfer) :
    (p.place contract t).flat = p.flat.insert ⟨contract, t.key⟩ t := by
  apply SortedMap.ext_find?
  rintro ⟨other, key⟩
  by_cases h : (⟨other, key⟩ : Place) = ⟨contract, t.key⟩
  · cases h
    rw [SortedMap.find?_insert_self, find?_flat, find?_place_self]
  · rw [SortedMap.find?_insert_of_ne _ h, find?_flat, find?_flat]
    apply find?_place_of_ne
    rintro rfl rfl
    exact h rfl

theorem flat_remove {p p' : Pool} {fee : TokenAmount} {id : UInt64} {t : Transfer}
    (h : p.remove fee id = .ok (t, p')) :
    p'.flat = p.flat.erase ⟨fee.contract, ⟨fee.amount, id⟩⟩ := by
  apply SortedMap.ext_find?
  rintro ⟨other, key⟩
  by_cases hplace : (⟨other, key⟩ : Place) = ⟨fee.contract, ⟨fee.amount, id⟩⟩
  · cases hplace
    rw [SortedMap.find?_erase_self, find?_flat, find?_of_remove_eq_ok h]
  · rw [SortedMap.find?_erase_of_ne _ hplace, find?_flat, find?_flat]
    apply find?_remove_of_ne h
    rintro rfl rfl
    exact hplace rfl

theorem values_flat (p : Pool) : p.flat.values = p.groups.values.flatMap FeeGroup.toList := by
  have hplaced (e : Address × FeeGroup) : (placed e).map (·.2) = e.2.toList := by
    rw [placed, List.map_map]
    rfl
  rw [SortedMap.values, flat, List.map_flatMap, SortedMap.values, List.flatMap_map]
  exact List.flatMap_congr fun e _ => hplaced e

/-- A walk through the whole pool visits the places in descending order. -/
theorem walk_all_eq (p : Pool) : p.walk .all = p.flat.values.reverse := by
  rw [values_flat, walk, List.reverse_flatMap]
  rfl

theorem size_eq (p : Pool) : p.size = p.flat.size := by
  have hsize : p.flat.size = p.flat.values.length := by
    rw [SortedMap.values, List.length_map]
    rfl
  rw [hsize, values_flat, size]
  induction p.groups.values with
  | nil => rfl
  | cons g rest ih =>
      rw [List.foldr_cons, ih, List.flatMap_cons, List.length_append]
      congr 1
      rw [FeeGroup.toList, SortedMap.values, List.length_map]
      rfl

end Pool

end WithdrawalPool
