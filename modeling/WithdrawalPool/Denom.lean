/-
Denominations of the local chain.  Those that begin with `gravity` are vouchers: they stand for a
token of the remote chain and spell its contract after the mark.
-/
import WithdrawalPool.Address

namespace WithdrawalPool

/-- Why a denomination is refused. -/
inductive DenomError where
  | invalid (denom : String)
  | wrongPrefix (denom : String)
  | wrongLength (denom : String) (expected actual : Nat)
  | contract (cause : AddressError)
deriving DecidableEq, Repr

/-- The name of a kind of coin.  A ledger may meet any text here, so validity is a judgement on
denominations and no part of their type. -/
abbrev Denom := String

namespace Denom

/-- The mark that voucher denominations begin with. -/
def voucherMark : String := "gravity"

/-- The number of bytes in a voucher denomination. -/
def voucherLength : Nat := voucherMark.utf8ByteSize + Address.textLength

def isTailChar (c : Char) : Bool :=
  c.isAlphanum || c == '/' || c == ':' || c == '.' || c == '_' || c == '-'

/-- An ASCII letter, then letters, digits and `/ : . _ -`, in 3 to 128 bytes. -/
def Valid (d : Denom) : Prop :=
  match d.toList with
  | [] => False
  | c :: rest =>
    c.isAlpha = true ∧ (3 ≤ d.utf8ByteSize ∧ d.utf8ByteSize ≤ 128) ∧
      rest.all isTailChar = true

instance (d : Denom) : Decidable (Valid d) := by
  unfold Valid
  split <;> infer_instance

def check (d : Denom) : Except DenomError Unit :=
  if d.Valid then .ok () else .error (.invalid d)

/-- The voucher for the token of `contract`. -/
def voucher (contract : Address) : Denom := voucherMark ++ contract.text

def IsVoucher (d : Denom) : Prop := voucherMark.toList <+: d.toList

instance (d : Denom) : Decidable d.IsVoucher :=
  inferInstanceAs (Decidable (voucherMark.toList <+: d.toList))

/-- What follows the voucher mark. -/
def afterMark (d : Denom) : String := String.ofList (d.toList.drop voucherMark.toList.length)

/-- The contract that a voucher denomination spells. -/
def voucherContract (d : Denom) : Except DenomError Address :=
  if d.IsVoucher then
    match Address.ofText d.afterMark with
    | .error cause => .error (.contract cause)
    | .ok contract =>
      if d.utf8ByteSize = voucherLength then .ok contract
      else .error (.wrongLength d voucherLength d.utf8ByteSize)
  else .error (.wrongPrefix d)

theorem check_eq_ok_iff {d : Denom} : d.check = .ok () ↔ d.Valid := by
  simp only [check]
  split <;> simp_all

theorem check_eq_error_iff {d : Denom} {e : DenomError} :
    d.check = .error e ↔ ¬ d.Valid ∧ e = .invalid d := by
  simp only [check]
  split <;> simp_all [eq_comm]

theorem isVoucher_voucher (contract : Address) : (voucher contract).IsVoucher := by
  simp [IsVoucher, voucher]

theorem afterMark_voucher (contract : Address) : (voucher contract).afterMark = contract.text := by
  simp [afterMark, voucher]

theorem utf8ByteSize_voucher (contract : Address) :
    (voucher contract).utf8ByteSize = voucherLength := by
  rw [voucher, String.utf8ByteSize_append, contract.wellFormed.utf8ByteSize_eq, voucherLength]

theorem voucherContract_voucher (contract : Address) :
    (voucher contract).voucherContract = .ok contract := by
  simp [voucherContract, isVoucher_voucher, afterMark_voucher, utf8ByteSize_voucher]

example : Denom.Valid "ibc/27394FB092D2ECCD" ∧ ¬ Denom.Valid "1atom" := by decide

end Denom

def DenomError.message : DenomError → String
  | .invalid denom => s!"Invalid denomination: {denom}"
  | .wrongPrefix denom => s!"Denomination {denom} does not start with {Denom.voucherMark}"
  | .wrongLength denom expected actual =>
    s!"Denomination {denom} has length {actual}, expected {expected}"
  | .contract cause => s!"Invalid contract in denomination: {cause.message}"

end WithdrawalPool
