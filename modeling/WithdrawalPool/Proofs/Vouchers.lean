/-
Voucher denominations and the contracts that they spell.  A denomination with the voucher mark
spells a contract exactly if what follows the mark is an address, whatever its letter case, so
vouchers and addresses are in bijection, and a test of the length finds nothing further to refuse.
-/
import WithdrawalPool.Proofs.WriteOnce

namespace WithdrawalPool

namespace Denom

variable {d : Denom} {contract : Address}

theorem isVoucher_iff : d.IsVoucher ↔ ∃ rest, d = voucherMark ++ rest := Text.isPrefix_iff

theorem afterMark_append (rest : String) : afterMark (voucherMark ++ rest) = rest := by
  rw [afterMark, String.toList_append, List.drop_left, String.ofList_toList]

/-- What follows the mark is read as an address is.  If it is one, the length is that of a voucher
already. -/
theorem voucherContract_append (rest : String) :
    voucherContract (voucherMark ++ rest) = (Address.ofText rest).mapError .contract := by
  have hvoucher : IsVoucher (voucherMark ++ rest) := isVoucher_iff.2 ⟨rest, rfl⟩
  rw [voucherContract, if_pos hvoucher, afterMark_append]
  cases hread : Address.ofText rest with
  | error cause => rfl
  | ok contract =>
      obtain rfl := Address.ofText_eq_ok_iff.1 hread
      have hsize := utf8ByteSize_voucher contract
      rw [voucher] at hsize
      simp only [hsize, ↓reduceIte]
      rfl

theorem voucherContract_eq_ok_iff : d.voucherContract = .ok contract ↔ d = voucher contract := by
  constructor
  · exact eq_voucher_of_voucherContract
  · rintro rfl
    exact voucherContract_voucher contract

/-- A denomination is refused for the mark that it lacks, or for what follows the mark. -/
theorem voucherContract_eq_error_iff {e : DenomError} :
    d.voucherContract = .error e ↔
      (¬ ∃ rest, d = voucherMark ++ rest) ∧ e = .wrongPrefix d ∨
        ∃ rest cause, d = voucherMark ++ rest ∧ Address.ofText rest = .error cause ∧
          e = .contract cause := by
  by_cases hmark : ∃ rest, d = voucherMark ++ rest
  · obtain ⟨rest, rfl⟩ := hmark
    rw [voucherContract_append]
    constructor
    · intro h
      cases hread : Address.ofText rest with
      | ok contract =>
          rw [hread] at h
          contradiction
      | error cause =>
          rw [hread] at h
          exact Or.inr ⟨rest, cause, rfl, hread, (Except.error.inj h).symm⟩
    · rintro (⟨hunmarked, _⟩ | ⟨other, cause, hsame, hread, rfl⟩)
      · exact absurd ⟨rest, rfl⟩ hunmarked
      · have hrest : rest = other := by
          rw [← afterMark_append rest, hsame, afterMark_append]
        rw [hrest, hread]
        rfl
  · have hvoucher : ¬ d.IsVoucher := mt isVoucher_iff.1 hmark
    rw [voucherContract, if_neg hvoucher]
    constructor
    · intro h
      exact Or.inl ⟨hmark, (Except.error.inj h).symm⟩
    · rintro (⟨_, rfl⟩ | ⟨rest, _, hmarked, _⟩)
      · rfl
      · exact absurd ⟨rest, hmarked⟩ hmark

end Denom

/-- The mark alone keeps a voucher out of the registry. -/
theorem Registry.register_voucher (r : Registry) (contract other : Address) :
    r.register (Denom.voucher contract) other =
      .error (.lookup (.invalid (Denom.voucher contract))) := by
  simp [register, Denom.check, Denom.valid_voucher, Denom.isVoucher_voucher, bind, Except.bind,
    throw, throwThe, MonadExceptOf.throw]

namespace Denom

/-- A denomination spells a contract exactly if it is the voucher of the contract.  Every other one
is refused: for its mark exactly if it does not begin with `gravity`, and else for what follows, with
the reason that this is no address; it is never refused for its length.  A voucher is a valid
denomination, no registry accepts it as a native one, and every registry resolves it to the contract
that it spells. -/
theorem vouchers_spell_contracts :
    (∀ (d : Denom) contract, d.voucherContract = .ok contract ↔ d = voucher contract) ∧
      (∀ (d : Denom) e, d.voucherContract = .error e ↔
        (¬ ∃ rest, d = "gravity" ++ rest) ∧ e = .wrongPrefix d ∨
          ∃ rest cause, d = "gravity" ++ rest ∧ Address.ofText rest = .error cause ∧
            e = .contract cause) ∧
      (∀ (d other : Denom) expected actual,
        d.voucherContract ≠ .error (.wrongLength other expected actual)) ∧
      (∀ contract, (voucher contract).check = .ok ()) ∧
      (∀ (r : Registry) contract other, r.register (voucher contract) other =
        .error (.lookup (.invalid (voucher contract)))) ∧
      ∀ (r : Registry) contract, r.contractOf (voucher contract) = .ok (.bridged, contract) := by
  refine ⟨fun d contract => voucherContract_eq_ok_iff, fun d e => voucherContract_eq_error_iff, ?_,
    fun contract => check_eq_ok_iff.2 (valid_voucher contract),
    fun r contract other => r.register_voucher contract other,
    fun r contract => r.contractOf_voucher contract⟩
  intro d other expected actual h
  rcases voucherContract_eq_error_iff.1 h with ⟨_, hprefix⟩ | ⟨_, _, _, _, hcontract⟩
  · contradiction
  · contradiction

end Denom

end WithdrawalPool
