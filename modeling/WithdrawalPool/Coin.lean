/-
Accounts of the local chain, coins in a local denomination, and amounts of a remote token.
-/
import WithdrawalPool.Amount
import WithdrawalPool.Denom

namespace WithdrawalPool

/-- An account of the local chain, known by its text alone. -/
@[ext] structure AccountId where
  text : String
deriving DecidableEq, Repr

namespace AccountId

def isEmpty (a : AccountId) : Bool := a.text == ""

instance : Ord AccountId := ⟨compareOn text⟩

instance : Std.TransOrd AccountId := inferInstanceAs (Std.TransCmp (compareOn text))

instance : Std.LawfulEqOrd AccountId where
  compare_self {a} := show compare a.text a.text = .eq from Std.ReflCmp.compare_self
  eq_of_compare {a b} h :=
    AccountId.ext (Std.LawfulEqCmp.eq_of_compare (show compare a.text b.text = .eq from h))

end AccountId

/-- An amount of a local denomination. -/
structure Coin where
  denom : Denom
  amount : Nat
deriving DecidableEq, Repr

namespace Coin

/-- The amount and the denomination, with nothing between them. -/
def text (c : Coin) : String := s!"{c.amount}{c.denom}"

/-- The sum of two coins of one denomination. -/
def add? (a b : Coin) : Option Coin :=
  if a.denom = b.denom then some ⟨a.denom, a.amount + b.amount⟩ else none

end Coin

/-- An amount of the token that `contract` issues on the remote chain. -/
@[ext] structure TokenAmount where
  contract : Address
  amount : Nat
deriving DecidableEq

namespace TokenAmount

def text (t : TokenAmount) : String := s!"{t.amount} of {t.contract}"

/-- The sum of two amounts on one contract. -/
def add? (a b : TokenAmount) : Option TokenAmount :=
  if a.contract = b.contract then some ⟨a.contract, a.amount + b.amount⟩ else none

/-- The voucher coin that stands for the amount on the local chain. -/
def voucher (t : TokenAmount) : Coin := ⟨Denom.voucher t.contract, t.amount⟩

end TokenAmount

end WithdrawalPool
