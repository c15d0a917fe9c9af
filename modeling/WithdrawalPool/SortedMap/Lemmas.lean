/-
Lookups after each update of a sorted map, and extensionality: maps with equal lookups are equal.
Nothing past this module looks inside an entry list to find out what an update did.
-/
import WithdrawalPool.SortedMap.Basic

namespace WithdrawalPool

universe u v

namespace SortedMap

variable {κ : Type u} {α : Type v} [Ord κ]

@[simp] theorem find?_empty (key : κ) : (∅ : SortedMap κ α).find? key = none := rfl

theorem ascending_keys (m : SortedMap κ α) :
    m.keys.Pairwise (fun left right => compare left right = .lt) :=
  List.pairwise_map.2 m.ascending

variable [Std.LawfulEqOrd κ]

theorem lookup_eq_some_iff {entries : List (κ × α)} (h : Ascending entries) {key : κ} {a : α} :
    lookup key entries = some a ↔ (key, a) ∈ entries := by
  induction entries with
  | nil => simp [lookup]
  | cons head rest ih =>
    obtain ⟨k, b⟩ := head
    obtain ⟨hhead, hrest⟩ := List.pairwise_cons.1 h
    simp only [lookup]
    split
    next heq =>
      obtain rfl := Std.LawfulEqCmp.eq_of_compare heq
      constructor
      · rintro ⟨rfl⟩
        exact List.mem_cons_self
      · intro hmem
        rcases List.mem_cons.1 hmem with hmem | hmem
        · cases hmem
          rfl
        · have := hhead _ hmem
          simp [Std.ReflCmp.compare_self] at this
    next hne =>
      rw [ih hrest, List.mem_cons]
      constructor
      · exact .inr
      · rintro (hmem | hmem)
        · cases hmem
          exact absurd Std.ReflCmp.compare_self hne
        · exact hmem

theorem find?_eq_some_iff {m : SortedMap κ α} {key : κ} {a : α} :
    m.find? key = some a ↔ (key, a) ∈ m.entries :=
  lookup_eq_some_iff m.ascending

theorem find?_eq_none_iff {m : SortedMap κ α} {key : κ} :
    m.find? key = none ↔ ∀ e ∈ m.entries, e.1 ≠ key := by
  rw [Option.eq_none_iff_forall_ne_some]
  constructor
  · rintro h ⟨k, a⟩ hmem rfl
    exact h a (find?_eq_some_iff.2 hmem)
  · intro h a hfound
    exact h _ (find?_eq_some_iff.1 hfound) rfl

theorem lookup_insertEntry_self (key : κ) (value : α) (entries : List (κ × α)) :
    lookup key (insertEntry key value entries) = some value := by
  induction entries with
  | nil => simp [insertEntry, lookup]
  | cons head rest ih =>
    simp only [insertEntry]
    split
    · simp [lookup]
    · simp [lookup]
    next hgt => simp [lookup, hgt, ih]

theorem lookup_insertEntry_of_ne {key other : κ} (h : other ≠ key) (value : α)
    (entries : List (κ × α)) :
    lookup other (insertEntry key value entries) = lookup other entries := by
  have hne : compare other key ≠ .eq := fun heq => h (Std.LawfulEqCmp.eq_of_compare heq)
  induction entries with
  | nil => simp [insertEntry, lookup, hne]
  | cons head rest ih =>
    simp only [insertEntry]
    split
    · simp [lookup, hne]
    next heq =>
      obtain rfl := Std.LawfulEqCmp.eq_of_compare heq
      simp [lookup, hne]
    · simp [lookup, ih]

theorem mem_entries_erase {m : SortedMap κ α} {key : κ} {e : κ × α} :
    e ∈ (m.erase key).entries ↔ e ∈ m.entries ∧ e.1 ≠ key := by
  simp only [erase, List.mem_filter, bne_iff_ne, ne_eq, and_congr_right_iff]
  intro _
  exact ⟨fun h he => h (he ▸ Std.ReflCmp.compare_self),
    fun h he => h (Std.LawfulEqCmp.eq_of_compare he).symm⟩

@[simp] theorem find?_erase_self (m : SortedMap κ α) (key : κ) : (m.erase key).find? key = none :=
  find?_eq_none_iff.2 fun _ he => (mem_entries_erase.1 he).2

theorem find?_erase_of_ne (m : SortedMap κ α) {key other : κ} (h : other ≠ key) :
    (m.erase key).find? other = m.find? other := by
  apply Option.ext
  intro a
  rw [find?_eq_some_iff, find?_eq_some_iff, mem_entries_erase]
  exact and_iff_left h

variable [Std.TransOrd κ]

@[simp] theorem find?_insert_self (m : SortedMap κ α) (key : κ) (value : α) :
    (m.insert key value).find? key = some value :=
  lookup_insertEntry_self key value m.entries

theorem find?_insert_of_ne (m : SortedMap κ α) {key other : κ} (h : other ≠ key) (value : α) :
    (m.insert key value).find? other = m.find? other :=
  lookup_insertEntry_of_ne h value m.entries

/-- Entries ascend strictly, so a list of them is determined by its members. -/
theorem eq_of_mem_iff {left right : List (κ × α)} (hleft : Ascending left)
    (hright : Ascending right) (h : ∀ e, e ∈ left ↔ e ∈ right) : left = right := by
  induction left generalizing right with
  | nil => exact (List.eq_nil_iff_forall_not_mem.2 fun e he => by simpa using (h e).2 he).symm
  | cons a left ih =>
    cases right with
    | nil => simpa using (h a).1 List.mem_cons_self
    | cons b right =>
      obtain ⟨ha, hleft⟩ := List.pairwise_cons.1 hleft
      obtain ⟨hb, hrest⟩ := List.pairwise_cons.1 hright
      have irrefl (e : κ × α) : compare e.1 e.1 ≠ .lt := by
        simp [Std.ReflCmp.compare_self]
      have hab : a = b := by
        rcases List.mem_cons.1 ((h a).1 List.mem_cons_self) with heq | hmem
        · exact heq
        rcases List.mem_cons.1 ((h b).2 List.mem_cons_self) with heq | hmem'
        · exact heq.symm
        exact absurd (Std.TransCmp.lt_trans (ha b hmem') (hb a hmem)) (irrefl a)
      subst hab
      congr 1
      refine ih hleft hrest fun e => ?_
      constructor
      · intro he
        rcases List.mem_cons.1 ((h e).1 (List.mem_cons_of_mem _ he)) with rfl | he'
        · exact absurd (ha _ he) (irrefl _)
        · exact he'
      · intro he
        rcases List.mem_cons.1 ((h e).2 (List.mem_cons_of_mem _ he)) with rfl | he'
        · exact absurd (hb _ he) (irrefl _)
        · exact he'

theorem ext_find? {left right : SortedMap κ α} (h : ∀ key, left.find? key = right.find? key) :
    left = right := by
  apply SortedMap.ext
  apply eq_of_mem_iff left.ascending right.ascending
  rintro ⟨k, a⟩
  rw [← find?_eq_some_iff, ← find?_eq_some_iff, h k]

theorem insert_insert (m : SortedMap κ α) (key : κ) (a b : α) :
    (m.insert key a).insert key b = m.insert key b := by
  apply ext_find?
  intro other
  by_cases hother : other = key
  · rw [hother, find?_insert_self, find?_insert_self]
  · rw [find?_insert_of_ne _ hother, find?_insert_of_ne _ hother, find?_insert_of_ne _ hother]

theorem insert_comm (m : SortedMap κ α) {left right : κ} (h : left ≠ right) (a b : α) :
    (m.insert left a).insert right b = (m.insert right b).insert left a := by
  apply ext_find?
  intro other
  by_cases hright : other = right
  · rw [hright, find?_insert_self, find?_insert_of_ne _ h.symm, find?_insert_self]
  by_cases hleft : other = left
  · rw [hleft, find?_insert_of_ne _ h, find?_insert_self, find?_insert_self]
  · rw [find?_insert_of_ne _ hright, find?_insert_of_ne _ hleft, find?_insert_of_ne _ hleft,
      find?_insert_of_ne _ hright]

omit [Std.LawfulEqOrd κ] in
theorem mem_entries_insert {m : SortedMap κ α} {key : κ} {value : α} {e : κ × α}
    (h : e ∈ (m.insert key value).entries) : e = (key, value) ∨ e ∈ m.entries :=
  mem_insertEntry h

end SortedMap

end WithdrawalPool
