/-
What registered pairs say, and how long.  A contract that carries a native denomination carries it
for good, and a contract that does not may still be registered for one.
-/
import WithdrawalPool.Proofs.Running
import WithdrawalPool.Registry.Native

namespace WithdrawalPool

namespace Denom

/-- Only the voucher of a contract spells the contract. -/
theorem eq_voucher_of_voucherContract {d : Denom} {contract : Address}
    (h : d.voucherContract = .ok contract) : d = voucher contract := by
  by_cases hvoucher : d.IsVoucher
  · rw [voucherContract, if_pos hvoucher] at h
    have htext : contract.text = d.afterMark := by
      cases hread : Address.ofText d.afterMark with
      | error e =>
          rw [hread] at h
          contradiction
      | ok read =>
          by_cases hsize : d.utf8ByteSize = voucherLength
          · simp only [hread, if_pos hsize] at h
            rw [← Except.ok.inj h]
            exact Address.ofText_eq_ok_iff.1 hread
          · simp only [hread, if_neg hsize] at h
            contradiction
    obtain ⟨rest, hrest⟩ := hvoucher
    apply String.toList_injective
    rw [voucher, htext, afterMark, String.toList_append, String.toList_ofList, ← hrest,
      List.drop_left]
  · rw [voucherContract, if_neg hvoucher] at h
    contradiction

theorem isTailChar_of_isDigit {c : Char} (h : Hex.isDigit c = true) : isTailChar c = true :=
  Text.forall_ascii (p := fun c => Hex.isDigit c = true → isTailChar c = true) (by decide)
    (Hex.toNat_le_of_isDigit h) h

theorem valid_voucher (contract : Address) : (voucher contract).Valid := by
  obtain ⟨hmark, _, hdigits⟩ := contract.wellFormed
  have htext : (voucher contract).toList =
      'g' :: (['r', 'a', 'v', 'i', 't', 'y', '0', 'x'] ++ contract.text.toList.drop 2) := by
    have hsplit : contract.text.toList = ['0', 'x'] ++ contract.text.toList.drop 2 := by
      rw [← hmark, List.take_append_drop]
    rw [voucher, String.toList_append, hsplit]
    rfl
  have htail : (['r', 'a', 'v', 'i', 't', 'y', '0', 'x'] ++ contract.text.toList.drop 2).all
      isTailChar = true := by
    rw [List.all_eq_true] at hdigits
    rw [List.all_append, Bool.and_eq_true, List.all_eq_true (l := contract.text.toList.drop 2)]
    exact ⟨by decide, fun c hc => isTailChar_of_isDigit (hdigits c hc)⟩
  rw [Valid, htext, utf8ByteSize_voucher]
  exact ⟨by decide, by decide, htail⟩

end Denom

namespace Registry

variable {r r' : Registry} {d : Denom} {contract : Address}

theorem register_eq_ok_iff :
    r.register d contract = .ok r' ↔
      d.Valid ∧ ¬ d.IsVoucher ∧ r.contracts.find? d = none ∧ r.denoms.find? contract = none ∧
        r' = { contracts := r.contracts.insert d contract
               denoms := r.denoms.insert contract d } := by
  unfold register
  by_cases hvalid : ¬ d.Valid
  · simp [Denom.check, hvalid, bind, Except.bind]
  rw [Decidable.not_not] at hvalid
  by_cases hvoucher : d.IsVoucher
  · simp [Denom.check, hvalid, hvoucher, bind, Except.bind, throw, throwThe,
      MonadExceptOf.throw]
  cases hdenom : r.contracts.find? d with
  | some taken =>
      simp [Denom.check, hvalid, hvoucher, bind, Except.bind, throw, throwThe,
        MonadExceptOf.throw]
  | none =>
      cases hcontract : r.denoms.find? contract with
      | some taken =>
          simp [Denom.check, hvalid, hvoucher, bind, Except.bind, throw,
            throwThe, MonadExceptOf.throw]
      | none =>
          simp [Denom.check, hvalid, hvoucher, bind, Except.bind, pure,
            Except.pure, eq_comm]

/-- The invariant of a registry: its pairs are the same from either side, and no voucher is among
them. -/
structure Sound (r : Registry) : Prop where
  paired : ∀ d contract, r.contracts.find? d = some contract → r.denoms.find? contract = some d
  native : ∀ d contract, r.denoms.find? contract = some d → ¬ d.IsVoucher

theorem sound_empty : Sound ∅ where
  paired d contract h := by cases h
  native d contract h := by cases h

theorem Sound.register (h : r.Sound) (hregister : r.register d contract = .ok r') :
    r'.Sound := by
  obtain ⟨_, hnative, _, hfree, rfl⟩ := register_eq_ok_iff.1 hregister
  constructor
  · intro other carrier hfind
    by_cases hother : other = d
    · subst hother
      rw [SortedMap.find?_insert_self] at hfind
      rw [← Option.some.inj hfind, SortedMap.find?_insert_self]
    · rw [SortedMap.find?_insert_of_ne _ hother] at hfind
      have hpaired := h.paired other carrier hfind
      have hne : carrier ≠ contract := by
        intro heq
        rw [heq, hfree] at hpaired
        contradiction
      rw [SortedMap.find?_insert_of_ne _ hne, hpaired]
  · intro other carrier hfind
    by_cases hcarrier : carrier = contract
    · subst hcarrier
      rw [SortedMap.find?_insert_self] at hfind
      rw [← Option.some.inj hfind]
      exact hnative
    · rw [SortedMap.find?_insert_of_ne _ hcarrier] at hfind
      exact h.native other carrier hfind

theorem find?_of_register (hregister : r.register d contract = .ok r') :
    r'.denoms.find? contract = some d := by
  obtain ⟨_, _, _, _, rfl⟩ := register_eq_ok_iff.1 hregister
  exact SortedMap.find?_insert_self _ _ _

theorem find?_register_of_ne (hregister : r.register d contract = .ok r') {other : Address}
    (hne : other ≠ contract) : r'.denoms.find? other = r.denoms.find? other := by
  obtain ⟨_, _, _, _, rfl⟩ := register_eq_ok_iff.1 hregister
  exact SortedMap.find?_insert_of_ne _ hne _

/-- A registered contract keeps its denomination. -/
theorem find?_register_of_some (hregister : r.register d contract = .ok r') {other : Address}
    {taken : Denom} (hfind : r.denoms.find? other = some taken) :
    r'.denoms.find? other = some taken := by
  have hne : other ≠ contract := by
    intro heq
    rw [heq, (register_eq_ok_iff.1 hregister).2.2.2.1] at hfind
    contradiction
  rw [find?_register_of_ne hregister hne, hfind]

theorem denomOf_of_some (h : r.denoms.find? contract = some d) :
    r.denomOf contract = (.native, d) := by
  rw [denomOf, h]

theorem denomOf_of_none (h : r.denoms.find? contract = none) :
    r.denomOf contract = (.bridged, Denom.voucher contract) := by
  rw [denomOf, h]

/-- What carries a denomination is its registered contract, or the contract that it spells. -/
theorem contractOf_eq_ok {origin : Origin} (h : r.contractOf d = .ok (origin, contract)) :
    (origin = .native ∧ ¬ d.IsVoucher ∧ r.contracts.find? d = some contract) ∨
      (origin = .bridged ∧ d = Denom.voucher contract) := by
  by_cases hvoucher : d.IsVoucher
  · rw [contractOf, if_pos hvoucher] at h
    cases hspelled : d.voucherContract with
    | error cause =>
        rw [hspelled] at h
        contradiction
    | ok spelled =>
        rw [hspelled] at h
        obtain ⟨rfl, rfl⟩ := Prod.mk.inj (Except.ok.inj h)
        exact Or.inr ⟨rfl, Denom.eq_voucher_of_voucherContract hspelled⟩
  · rw [contractOf, if_neg hvoucher] at h
    cases hfind : r.contracts.find? d with
    | none =>
        rw [hfind] at h
        contradiction
    | some taken =>
        rw [hfind] at h
        obtain ⟨rfl, rfl⟩ := Prod.mk.inj (Except.ok.inj h)
        exact Or.inl ⟨rfl, hvoucher, rfl⟩

/-- A sound registry leads back from a contract where the contract of the denomination is not
registered for another one. -/
theorem Sound.denomOf_of_contractOf (h : r.Sound) {origin : Origin}
    (hcontract : r.contractOf d = .ok (origin, contract))
    (hfree : d = Denom.voucher contract → r.denoms.find? contract = none) :
    r.denomOf contract = (origin, d) := by
  rcases contractOf_eq_ok hcontract with ⟨rfl, _, hfind⟩ | ⟨rfl, hspelled⟩
  · exact denomOf_of_some (h.paired d contract hfind)
  · rw [denomOf_of_none (hfree hspelled), hspelled]

theorem origin_of_contractOf {origin : Origin} (h : r.contractOf d = .ok (origin, contract)) :
    origin = .bridged ↔ d.IsVoucher := by
  rcases contractOf_eq_ok h with ⟨rfl, hnative, _⟩ | ⟨rfl, rfl⟩
  · exact iff_of_false Origin.noConfusion hnative
  · exact iff_of_true rfl (Denom.isVoucher_voucher contract)

theorem Sound.origin_of_denomOf (hsound : r.Sound) {origin : Origin}
    (h : r.denomOf contract = (origin, d)) :
    origin = .bridged ↔ d.IsVoucher := by
  cases hfind : r.denoms.find? contract with
  | some carried =>
      rw [denomOf_of_some hfind] at h
      obtain ⟨rfl, rfl⟩ := Prod.mk.inj h
      exact iff_of_false Origin.noConfusion (hsound.native carried contract hfind)
  | none =>
      rw [denomOf_of_none hfind] at h
      obtain ⟨rfl, rfl⟩ := Prod.mk.inj h
      exact iff_of_true rfl (Denom.isVoucher_voucher contract)

end Registry

end WithdrawalPool
