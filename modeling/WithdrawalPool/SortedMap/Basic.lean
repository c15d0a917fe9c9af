/-
Finite maps kept as one list of entries in strictly ascending key order.  A map has exactly one
such list, so two maps with the same lookups are equal, and what two histories of updates leave
behind can be compared with `=`.
-/
namespace WithdrawalPool

universe u v

/-- The keys strictly ascend along the list. -/
def Ascending {κ : Type u} {α : Type v} [Ord κ] (entries : List (κ × α)) : Prop :=
  entries.Pairwise (fun left right => compare left.1 right.1 = .lt)

/-- A finite map from `κ` to `α`, its entries in ascending key order. -/
structure SortedMap (κ : Type u) (α : Type v) [Ord κ] where
  entries : List (κ × α)
  ascending : Ascending entries

namespace SortedMap

variable {κ : Type u} {α : Type v} [Ord κ]

@[ext] theorem ext {left right : SortedMap κ α} (h : left.entries = right.entries) :
    left = right := by
  cases left
  cases right
  cases h
  rfl

instance [DecidableEq κ] [DecidableEq α] : DecidableEq (SortedMap κ α) :=
  fun left right => decidable_of_iff (left.entries = right.entries) ⟨ext, congrArg entries⟩

def empty : SortedMap κ α := ⟨[], List.Pairwise.nil⟩

instance : EmptyCollection (SortedMap κ α) := ⟨empty⟩

instance : Inhabited (SortedMap κ α) := ⟨∅⟩

def isEmpty (m : SortedMap κ α) : Bool := m.entries.isEmpty

def size (m : SortedMap κ α) : Nat := m.entries.length

/-- The keys, ascending. -/
def keys (m : SortedMap κ α) : List κ := m.entries.map (·.1)

/-- The values, in ascending order of their keys. -/
def values (m : SortedMap κ α) : List α := m.entries.map (·.2)

/-- The first value in the list whose key compares equal to `key`. -/
def lookup (key : κ) : List (κ × α) → Option α
  | [] => none
  | (k, a) :: rest => if compare key k = .eq then some a else lookup key rest

def find? (m : SortedMap κ α) (key : κ) : Option α := lookup key m.entries

/-- Puts an entry at its place in an ascending list, over an entry with an equal key. -/
def insertEntry (key : κ) (value : α) : List (κ × α) → List (κ × α)
  | [] => [(key, value)]
  | (k, a) :: rest =>
    match compare key k with
    | .lt => (key, value) :: (k, a) :: rest
    | .eq => (key, value) :: rest
    | .gt => (k, a) :: insertEntry key value rest

theorem mem_insertEntry {key : κ} {value : α} {entries : List (κ × α)} {e : κ × α}
    (h : e ∈ insertEntry key value entries) : e = (key, value) ∨ e ∈ entries := by
  induction entries with
  | nil => simpa [insertEntry] using h
  | cons head rest ih =>
    obtain ⟨k, a⟩ := head
    simp only [insertEntry] at h
    split at h
    · simpa using h
    · rcases List.mem_cons.1 h with h | h
      · exact .inl h
      · exact .inr (List.mem_cons_of_mem _ h)
    · rcases List.mem_cons.1 h with h | h
      · exact .inr (h ▸ List.mem_cons_self)
      · exact (ih h).imp_right (List.mem_cons_of_mem _)

theorem ascending_insertEntry [Std.TransOrd κ] (key : κ) (value : α) {entries : List (κ × α)}
    (h : Ascending entries) : Ascending (insertEntry key value entries) := by
  induction entries with
  | nil => exact List.pairwise_singleton _ _
  | cons head rest ih =>
    obtain ⟨k, a⟩ := head
    obtain ⟨hhead, hrest⟩ := List.pairwise_cons.1 h
    simp only [insertEntry]
    split
    next hlt =>
      refine List.pairwise_cons.2 ⟨fun e he => ?_, h⟩
      rcases List.mem_cons.1 he with rfl | he
      · exact hlt
      · exact Std.TransCmp.lt_trans hlt (hhead e he)
    next heq =>
      exact List.pairwise_cons.2
        ⟨fun e he => Std.TransCmp.lt_of_eq_of_lt heq (hhead e he), hrest⟩
    next hgt =>
      refine List.pairwise_cons.2 ⟨fun e he => ?_, ih hrest⟩
      rcases mem_insertEntry he with rfl | he
      · exact Std.OrientedCmp.lt_of_gt hgt
      · exact hhead e he

/-- The map with `value` at `key`, whatever was there before. -/
def insert [Std.TransOrd κ] (m : SortedMap κ α) (key : κ) (value : α) : SortedMap κ α :=
  ⟨insertEntry key value m.entries, ascending_insertEntry key value m.ascending⟩

/-- The map without an entry at `key`. -/
def erase (m : SortedMap κ α) (key : κ) : SortedMap κ α :=
  ⟨m.entries.filter (fun e => compare key e.1 != .eq),
    List.Pairwise.sublist List.filter_sublist m.ascending⟩

end SortedMap

end WithdrawalPool
