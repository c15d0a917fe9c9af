/-
The pool of pending transfers, in groups by contract.  A group that loses its last transfer goes
away, so the groups tell which contracts have transfers pending.
-/
import WithdrawalPool.Error
import WithdrawalPool.Pool.Group

namespace WithdrawalPool

/-- The pending transfers, in groups of which none is empty. -/
structure Pool where
  groups : SortedMap Address FeeGroup
  occupied : ∀ e ∈ groups.entries, e.2 ≠ ∅
deriving DecidableEq

namespace Pool

@[ext] theorem ext {p q : Pool} (h : p.groups = q.groups) : p = q := by
  cases p
  cases q
  cases h
  rfl

def empty : Pool := ⟨∅, by intro e he; cases he⟩

instance : EmptyCollection Pool := ⟨empty⟩

instance : Inhabited Pool := ⟨∅⟩

/-- The number of transfers. -/
def size (p : Pool) : Nat := p.groups.values.foldr (fun g n => g.size + n) 0

def isEmpty (p : Pool) : Bool := p.groups.isEmpty

/-- The contracts with transfers pending, ascending. -/
def contracts (p : Pool) : List Address := p.groups.keys

/-- The transfers filed under a contract. -/
def group (p : Pool) (contract : Address) : FeeGroup := (p.groups.find? contract).getD ∅

/-- Replaces the transfers filed under a contract. -/
def setGroup (p : Pool) (contract : Address) (g : FeeGroup) : Pool :=
  if h : g = ∅ then
    ⟨p.groups.erase contract, fun e he => p.occupied e (SortedMap.mem_entries_erase.1 he).1⟩
  else
    ⟨p.groups.insert contract g, fun e he => by
      rcases SortedMap.mem_entries_insert he with rfl | he
      · exact h
      · exact p.occupied e he⟩

/-- The transfer filed under a contract, a fee and an id. -/
def find? (p : Pool) (contract : Address) (key : FeeKey) : Option Transfer :=
  (p.group contract).find? key

/-- The transfer filed under a contract, a fee and an id. -/
def get (p : Pool) (contract : Address) (key : FeeKey) : Except PoolError Transfer :=
  match p.find? contract key with
  | some t => .ok t
  | none => .error (.unknownTransfer key.id)

/-- Files a transfer under a contract of the caller's choice, over one with the same fee and
id. -/
def place (p : Pool) (contract : Address) (t : Transfer) : Pool :=
  p.setGroup contract ((p.group contract).insert t)

/-- Adds a transfer under the contract of its fee. -/
def insert (p : Pool) (t : Transfer) : Except PoolError Pool :=
  match p.find? t.contract t.key with
  | some _ => .error (.alreadyPending t.id)
  | none => .ok (p.place t.contract t)

/-- Takes out the transfer that is filed under a contract, a fee and an id. -/
def remove (p : Pool) (fee : TokenAmount) (id : UInt64) : Except PoolError (Transfer × Pool) :=
  match p.find? fee.contract ⟨fee.amount, id⟩ with
  | some t =>
    .ok (t, p.setGroup fee.contract ((p.group fee.contract).erase ⟨fee.amount, id⟩))
  | none => .error (.unknownTransfer id)

@[simp] theorem group_empty (contract : Address) : (∅ : Pool).group contract = ∅ := rfl

@[simp] theorem group_setGroup_self (p : Pool) (contract : Address) (g : FeeGroup) :
    (p.setGroup contract g).group contract = g := by
  unfold setGroup
  split
  next h => simp [group, h]
  next h => simp [group]

theorem group_setGroup_of_ne (p : Pool) {contract other : Address} (h : other ≠ contract)
    (g : FeeGroup) : (p.setGroup contract g).group other = p.group other := by
  unfold setGroup
  split
  · simp [group, SortedMap.find?_erase_of_ne p.groups h]
  · simp [group, SortedMap.find?_insert_of_ne p.groups h]

/-- No group is empty, so a pool is determined by what is filed under each contract. -/
theorem ext_group {p q : Pool} (h : ∀ contract, p.group contract = q.group contract) : p = q := by
  apply ext
  apply SortedMap.ext_find?
  intro contract
  have hgroup := h contract
  have occupied (r : Pool) {g : FeeGroup} (hg : r.groups.find? contract = some g) : g ≠ ∅ :=
    r.occupied _ (SortedMap.find?_eq_some_iff.1 hg)
  simp only [group] at hgroup
  cases hp : p.groups.find? contract with
  | none =>
    cases hq : q.groups.find? contract with
    | none => rfl
    | some g =>
      simp only [hp, hq, Option.getD_none, Option.getD_some] at hgroup
      exact absurd hgroup.symm (occupied q hq)
  | some g =>
    cases hq : q.groups.find? contract with
    | none =>
      simp only [hp, hq, Option.getD_none, Option.getD_some] at hgroup
      exact absurd hgroup (occupied p hp)
    | some g' =>
      simp only [hp, hq, Option.getD_some] at hgroup
      rw [hgroup]

end Pool

end WithdrawalPool
