/-
The pending transfers of one contract, in order of fee and then of id.  A transfer stands at the
place that its own fee and id give it, and no two transfers share a place.
-/
import WithdrawalPool.SortedMap.Lemmas
import WithdrawalPool.Transfer

namespace WithdrawalPool

/-- The place of a transfer in its group. -/
@[ext] structure FeeKey where
  fee : Nat
  id : UInt64
deriving DecidableEq, Repr

namespace FeeKey

/-- By fee, and by id where the fees are equal. -/
instance : Ord FeeKey := ⟨compareLex (compareOn fee) (compareOn id)⟩

instance : Std.TransOrd FeeKey :=
  inferInstanceAs (Std.TransCmp (compareLex (compareOn fee) (compareOn id)))

instance : Std.LawfulEqOrd FeeKey where
  compare_self {a} :=
    show compareLex (compareOn fee) (compareOn id) a a = .eq from Std.ReflCmp.compare_self
  eq_of_compare {a b} h := by
    obtain ⟨hfee, hid⟩ := Ordering.then_eq_eq.1 h
    exact FeeKey.ext
      (Std.LawfulEqCmp.eq_of_compare (show compare a.fee b.fee = .eq from hfee))
      (Std.LawfulEqCmp.eq_of_compare (show compare a.id b.id = .eq from hid))

theorem lt_of_compare {a b : FeeKey} (h : compare a b = .lt) :
    a.fee < b.fee ∨ a.fee = b.fee ∧ a.id < b.id := by
  rcases Ordering.then_eq_lt.1 h with hfee | ⟨hfee, hid⟩
  · exact Or.inl (Nat.compare_eq_lt.1 hfee)
  · exact Or.inr ⟨Nat.compare_eq_eq.1 hfee, Std.compare_eq_lt.1 hid⟩

end FeeKey

def Transfer.key (t : Transfer) : FeeKey := ⟨t.fee.amount, t.id⟩

/-- Transfers by fee and id, each at its own key. -/
structure FeeGroup where
  transfers : SortedMap FeeKey Transfer
  keyed : ∀ e ∈ transfers.entries, e.1 = e.2.key
deriving DecidableEq

namespace FeeGroup

@[ext] theorem ext {g h : FeeGroup} (heq : g.transfers = h.transfers) : g = h := by
  cases g
  cases h
  cases heq
  rfl

def empty : FeeGroup := ⟨∅, by intro e he; cases he⟩

instance : EmptyCollection FeeGroup := ⟨empty⟩

def size (g : FeeGroup) : Nat := g.transfers.size

/-- The transfers, the lowest fee first and the oldest first among equal fees. -/
def toList (g : FeeGroup) : List Transfer := g.transfers.values

def find? (g : FeeGroup) (key : FeeKey) : Option Transfer := g.transfers.find? key

/-- Adds a transfer, over one with the same fee and id. -/
def insert (g : FeeGroup) (t : Transfer) : FeeGroup :=
  ⟨g.transfers.insert t.key t, fun e he => by
    rcases SortedMap.mem_entries_insert he with rfl | he
    · rfl
    · exact g.keyed e he⟩

def erase (g : FeeGroup) (key : FeeKey) : FeeGroup :=
  ⟨g.transfers.erase key, fun e he => g.keyed e (SortedMap.mem_entries_erase.1 he).1⟩

theorem key_of_find?_eq_some {g : FeeGroup} {key : FeeKey} {t : Transfer}
    (h : g.find? key = some t) : t.key = key :=
  (g.keyed _ (SortedMap.find?_eq_some_iff.1 h)).symm

@[simp] theorem find?_empty (key : FeeKey) : (∅ : FeeGroup).find? key = none := rfl

@[simp] theorem find?_insert_self (g : FeeGroup) (t : Transfer) :
    (g.insert t).find? t.key = some t :=
  SortedMap.find?_insert_self g.transfers t.key t

theorem find?_insert_of_ne (g : FeeGroup) {t : Transfer} {key : FeeKey} (h : key ≠ t.key) :
    (g.insert t).find? key = g.find? key :=
  SortedMap.find?_insert_of_ne g.transfers h t

@[simp] theorem find?_erase_self (g : FeeGroup) (key : FeeKey) : (g.erase key).find? key = none :=
  SortedMap.find?_erase_self g.transfers key

theorem find?_erase_of_ne (g : FeeGroup) {key other : FeeKey} (h : other ≠ key) :
    (g.erase key).find? other = g.find? other :=
  SortedMap.find?_erase_of_ne g.transfers h

theorem ext_find? {g h : FeeGroup} (heq : ∀ key, g.find? key = h.find? key) : g = h :=
  ext (SortedMap.ext_find? heq)

theorem insert_ne_empty (g : FeeGroup) (t : Transfer) : g.insert t ≠ ∅ := by
  intro h
  have := find?_insert_self g t
  rw [h] at this
  simp at this

end FeeGroup

end WithdrawalPool
