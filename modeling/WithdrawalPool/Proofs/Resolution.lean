/-
From a denomination to its contract and back.  A native denomination comes back from its contract.
A voucher comes back only while its contract carries nothing native: the voucher mark decides what
carries a denomination, and the registered pairs decide what a contract carries.
-/
import WithdrawalPool.Proofs.Registration

namespace WithdrawalPool

namespace Registry

/-- Makes registrations one after the other, and passes over those that are refused. -/
def registerAll (r : Registry) : List (Denom × Address) → Registry
  | [] => r
  | (d, contract) :: rest =>
    match r.register d contract with
    | .ok r' => r'.registerAll rest
    | .error _ => r.registerAll rest

/-- The invariant of a registry that only registrations have changed: its two sides say the same,
and each denomination in it is valid and native. -/
structure Linked (r : Registry) : Prop extends Sound r where
  listed : ∀ d contract, r.denoms.find? contract = some d → r.contracts.find? d = some contract
  valid : ∀ d contract, r.denoms.find? contract = some d → d.Valid

theorem linked_empty : Linked ∅ where
  toSound := sound_empty
  listed d contract h := by cases h
  valid d contract h := by cases h

variable {r r' : Registry} {d : Denom} {contract : Address} {origin : Origin}

theorem Linked.register (h : r.Linked) (hregister : r.register d contract = .ok r') :
    r'.Linked := by
  have hsound := h.toSound.register hregister
  obtain ⟨hvalid, _, hnew, _, rfl⟩ := register_eq_ok_iff.1 hregister
  -- A pair of the new registry is the new pair or was there before.
  have hpair {other : Denom} {carrier : Address}
      (hfind : (r.denoms.insert contract d).find? carrier = some other) :
      carrier = contract ∧ other = d ∨ r.denoms.find? carrier = some other := by
    by_cases hcarrier : carrier = contract
    · subst hcarrier
      rw [SortedMap.find?_insert_self] at hfind
      exact Or.inl ⟨rfl, (Option.some.inj hfind).symm⟩
    · rw [SortedMap.find?_insert_of_ne _ hcarrier] at hfind
      exact Or.inr hfind
  refine { toSound := hsound, listed := ?_, valid := ?_ }
  · intro other carrier hfind
    rcases hpair hfind with ⟨rfl, rfl⟩ | hold
    · exact SortedMap.find?_insert_self _ _ _
    · have hlisted := h.listed other carrier hold
      have hne : other ≠ d := by
        rintro rfl
        rw [hnew] at hlisted
        contradiction
      exact (SortedMap.find?_insert_of_ne _ hne _).trans hlisted
  · intro other carrier hfind
    rcases hpair hfind with ⟨_, rfl⟩ | hold
    · exact hvalid
    · exact h.valid other carrier hold

theorem Linked.registerAll (h : r.Linked) (pairs : List (Denom × Address)) :
    (r.registerAll pairs).Linked := by
  induction pairs generalizing r with
  | nil => exact h
  | cons pair rest ih =>
      rw [Registry.registerAll]
      cases hregister : r.register pair.1 pair.2 with
      | ok r' => exact ih (h.register hregister)
      | error e => exact ih h

theorem Linked.find?_iff (h : r.Linked) :
    r.contracts.find? d = some contract ↔ r.denoms.find? contract = some d :=
  ⟨h.paired d contract, h.listed d contract⟩

/-- What a contract carries may be minted and paid out. -/
theorem Linked.valid_denomOf (h : r.Linked) (contract : Address) :
    (r.denomOf contract).2.Valid := by
  cases hfind : r.denoms.find? contract with
  | some d =>
      rw [denomOf_of_some hfind]
      exact h.valid d contract hfind
  | none =>
      rw [denomOf_of_none hfind]
      exact Denom.valid_voucher contract

/-- Where a contract leads back to the denomination that it was found for. -/
theorem Linked.denomOf_eq_iff (h : r.Linked) (hcontract : r.contractOf d = .ok (origin, contract)) :
    r.denomOf contract = (origin, d) ↔
      origin = .native ∨ ∀ native, r.contracts.find? native ≠ some contract := by
  constructor
  · intro hback
    rcases contractOf_eq_ok hcontract with ⟨hnative, _, _⟩ | ⟨rfl, _⟩
    · exact Or.inl hnative
    · refine Or.inr fun native hnative => ?_
      rw [denomOf_of_some (h.find?_iff.1 hnative)] at hback
      exact Origin.noConfusion (congrArg Prod.fst hback)
  · intro hfree
    apply h.denomOf_of_contractOf hcontract
    rintro rfl
    have hbridged := (origin_of_contractOf hcontract).2 (Denom.isVoucher_voucher contract)
    rcases hfree with hnative | hnone
    · rw [hbridged] at hnative
      contradiction
    · cases hfind : r.denoms.find? contract with
      | none => rfl
      | some native => exact absurd (h.find?_iff.2 hfind) (hnone native)

/-- After any registrations, a denomination comes back from its contract exactly if it is native,
or it is the voucher of a contract that no native denomination is registered on. -/
theorem round_trip_iff {pairs : List (Denom × Address)}
    (h : ((∅ : Registry).registerAll pairs).contractOf d = .ok (origin, contract)) :
    ((∅ : Registry).registerAll pairs).denomOf contract = (origin, d) ↔
      origin = .native ∨
        ∀ native, ((∅ : Registry).registerAll pairs).contracts.find? native ≠ some contract :=
  (linked_empty.registerAll pairs).denomOf_eq_iff h

/-- Atoms come back from their contract, on which another registration was refused. -/
theorem round_trip_of_atoms :
    ((∅ : Registry).registerAll [("uatom", Address.zero), ("ustake", Address.zero)]).contractOf
        "uatom" = .ok (.native, Address.zero) ∧
      ((∅ : Registry).registerAll [("uatom", Address.zero), ("ustake", Address.zero)]).denomOf
        Address.zero = (.native, "uatom") := by
  have hcontract :
      ((∅ : Registry).registerAll [("uatom", Address.zero), ("ustake", Address.zero)]).contractOf
        "uatom" = .ok (.native, Address.zero) := by rfl
  exact ⟨hcontract, (round_trip_iff hcontract).2 (Or.inl rfl)⟩

/-- The vouchers of a contract that atoms are registered on lead to the contract, and from there
to the atoms. -/
theorem voucher_of_registered_contract :
    ∃ (pairs : List (Denom × Address)) (d : Denom) (origin : Origin) (contract : Address),
      ((∅ : Registry).registerAll pairs).contractOf d = .ok (origin, contract) ∧
        ((∅ : Registry).registerAll pairs).denomOf contract ≠ (origin, d) :=
  ⟨[("uatom", Address.zero)], Denom.voucher Address.zero, .bridged, Address.zero, by rfl,
    by decide⟩

end Registry

end WithdrawalPool
