/-
The counter that hands out transfer ids.  It never goes back, and it stops short of the largest
id, so that the successor it would store always exists.
-/
import WithdrawalPool.Error

namespace WithdrawalPool

/-- The next id, or nothing before the first id was handed out. -/
structure IdCounter where
  next : Option UInt64 := none
deriving DecidableEq, Repr

namespace IdCounter

def startingAt (id : UInt64) : IdCounter := ⟨some id⟩

/-- The id that the counter stands at; ids start at one. -/
def peek (c : IdCounter) : UInt64 := c.next.getD 1

/-- The id after the one that the counter stands at, if there is one. -/
def successor (c : IdCounter) : Except PoolError UInt64 :=
  if c.peek.toNat + 1 < UInt64.size then .ok (c.peek + 1) else .error .idsExhausted

/-- Hands out the id that the counter stands at. -/
def take (c : IdCounter) : Except PoolError (UInt64 × IdCounter) :=
  match c.successor with
  | .ok next => .ok (c.peek, ⟨some next⟩)
  | .error e => .error e

theorem successor_eq_ok_iff {c : IdCounter} {id : UInt64} :
    c.successor = .ok id ↔ id.toNat = c.peek.toNat + 1 := by
  simp only [successor]
  have hlt := id.toNat_lt
  split
  next h =>
    have hsum : (c.peek + 1).toNat = c.peek.toNat + 1 := by
      rw [UInt64.toNat_add]
      exact Nat.mod_eq_of_lt h
    rw [Except.ok.injEq]
    constructor
    · rintro rfl
      exact hsum
    · intro hid
      exact UInt64.toNat_inj.1 (hsum.trans hid.symm)
  next h =>
    simp only [reduceCtorEq, false_iff]
    intro hid
    exact h (hid ▸ hlt)

example : (startingAt 18446744073709551615).successor = .error .idsExhausted := by rfl

end IdCounter

end WithdrawalPool
