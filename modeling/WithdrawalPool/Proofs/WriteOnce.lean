/-
The registry as a bijection that only grows.  Whatever registrations were tried, each registered
denomination has one contract and each registered contract one denomination, and no later
registration changes a pair.  So what a contract carries always leads back to the contract.
Contracts are told apart by their texts here, and two texts may stand for the same bytes.
-/
import WithdrawalPool.Proofs.Addresses
import WithdrawalPool.Proofs.Resolution
import WithdrawalPool.Scenario

namespace WithdrawalPool

namespace Registry

variable {r r' : Registry} {d : Denom} {contract : Address}

theorem registerAll_append (r : Registry) (pairs more : List (Denom × Address)) :
    r.registerAll (pairs ++ more) = (r.registerAll pairs).registerAll more := by
  induction pairs generalizing r with
  | nil => rfl
  | cons pair rest ih =>
      rw [List.cons_append, registerAll, registerAll]
      cases r.register pair.1 pair.2 with
      | ok r' => exact ih r'
      | error e => exact ih r

/-- A pair that is registered stays as it is. -/
theorem find?_registerAll_of_some (hfind : r.denoms.find? contract = some d)
    (more : List (Denom × Address)) :
    (r.registerAll more).denoms.find? contract = some d := by
  induction more generalizing r with
  | nil => exact hfind
  | cons pair rest ih =>
      rw [registerAll]
      cases hregister : r.register pair.1 pair.2 with
      | ok r' => exact ih (find?_register_of_some hregister hfind)
      | error e => exact ih hfind

/-- A registration is accepted exactly if the denomination is valid and no voucher, and neither
side is taken. -/
theorem exists_register_iff :
    (∃ r', r.register d contract = .ok r') ↔
      d.Valid ∧ ¬ d.IsVoucher ∧ r.contracts.find? d = none ∧ r.denoms.find? contract = none := by
  constructor
  · rintro ⟨r', hregister⟩
    obtain ⟨hvalid, hnative, hdenom, hcontract, _⟩ := register_eq_ok_iff.1 hregister
    exact ⟨hvalid, hnative, hdenom, hcontract⟩
  · rintro ⟨hvalid, hnative, hdenom, hcontract⟩
    exact ⟨_, register_eq_ok_iff.2 ⟨hvalid, hnative, hdenom, hcontract, rfl⟩⟩

theorem mem_nativeDenoms_iff :
    d ∈ r.nativeDenoms ↔ ∃ contract, r.contracts.find? d = some contract := by
  rw [nativeDenoms, SortedMap.keys, List.mem_map]
  constructor
  · rintro ⟨⟨_, contract⟩, hmem, rfl⟩
    exact ⟨contract, SortedMap.find?_eq_some_iff.2 hmem⟩
  · rintro ⟨contract, hfind⟩
    exact ⟨(d, contract), SortedMap.find?_eq_some_iff.1 hfind, rfl⟩

theorem contractOf_of_some (hnative : ¬ d.IsVoucher) (hfind : r.contracts.find? d = some contract) :
    r.contractOf d = .ok (.native, contract) := by
  rw [contractOf, if_neg hnative, hfind]

theorem contractOf_voucher (r : Registry) (contract : Address) :
    r.contractOf (Denom.voucher contract) = .ok (.bridged, contract) := by
  rw [contractOf, if_pos (Denom.isVoucher_voucher contract), Denom.voucherContract_voucher]

/-- Both lookups of a native asset read the same pair. -/
theorem Linked.contractOf_eq_native_iff (h : r.Linked) :
    r.contractOf d = .ok (.native, contract) ↔ r.denomOf contract = (.native, d) := by
  constructor
  · intro hcontract
    rcases contractOf_eq_ok hcontract with ⟨_, _, hfind⟩ | ⟨horigin, _⟩
    · exact denomOf_of_some (h.paired d contract hfind)
    · contradiction
  · intro hdenom
    cases hfind : r.denoms.find? contract with
    | some native =>
        rw [denomOf_of_some hfind] at hdenom
        obtain rfl : native = d := congrArg Prod.snd hdenom
        exact contractOf_of_some (h.native native contract hfind)
          (h.listed native contract hfind)
    | none =>
        rw [denomOf_of_none hfind] at hdenom
        exact Origin.noConfusion (congrArg Prod.fst hdenom)

/-- What a contract carries leads back to the contract. -/
theorem Linked.contractOf_denomOf (h : r.Linked) (contract : Address) :
    r.contractOf (r.denomOf contract).2 = .ok ((r.denomOf contract).1, contract) := by
  cases hfind : r.denoms.find? contract with
  | some native =>
      have hdenom := denomOf_of_some hfind
      rw [hdenom]
      exact h.contractOf_eq_native_iff.2 hdenom
  | none =>
      rw [denomOf_of_none hfind]
      exact r.contractOf_voucher contract

/-- After any registrations the two sides of the registry are inverse to each other and hold valid
native denominations only.  A further registration is accepted exactly if it is valid and free on
both sides, leaves everything as it was if it is refused, and changes no pair if it is accepted.
Native assets resolve alike from both sides, and every contract comes back from what it carries. -/
theorem registered_pairs_are_final {pairs : List (Denom × Address)}
    (h : (∅ : Registry).registerAll pairs = r) :
    (∀ d contract, r.contracts.find? d = some contract ↔ r.denoms.find? contract = some d) ∧
      (∀ d ∈ r.nativeDenoms, d.Valid ∧ ¬ d.IsVoucher) ∧
      (∀ d contract, (∃ r', r.register d contract = .ok r') ↔
        d.Valid ∧ ¬ d.IsVoucher ∧ r.contracts.find? d = none ∧
          r.denoms.find? contract = none) ∧
      (∀ d contract e, r.register d contract = .error e → ∀ s : Scenario, s.registry = r →
        s.runStep (.register d contract) = (.registryError e, s)) ∧
      (∀ more d contract, r.contracts.find? d = some contract →
        ((∅ : Registry).registerAll (pairs ++ more)).contracts.find? d = some contract ∧
          ((∅ : Registry).registerAll (pairs ++ more)).denoms.find? contract = some d) ∧
      (∀ d contract, r.contractOf d = .ok (.native, contract) ↔
        r.denomOf contract = (.native, d)) ∧
      ∀ contract, r.contractOf (r.denomOf contract).2 = .ok ((r.denomOf contract).1, contract) := by
  have hlinked : r.Linked := h ▸ linked_empty.registerAll pairs
  refine ⟨fun d contract => hlinked.find?_iff, ?_, fun d contract => exists_register_iff, ?_, ?_,
    fun d contract => hlinked.contractOf_eq_native_iff, hlinked.contractOf_denomOf⟩
  · intro d hd
    obtain ⟨contract, hfind⟩ := mem_nativeDenoms_iff.1 hd
    have hpaired := hlinked.paired d contract hfind
    exact ⟨hlinked.valid d contract hpaired, hlinked.native d contract hpaired⟩
  · rintro d contract e hrefused s rfl
    rw [Scenario.runStep, hrefused]
  · intro more d contract hfind
    have hkept := find?_registerAll_of_some (hlinked.paired d contract hfind) more
    rw [registerAll_append, h]
    exact ⟨(hlinked.registerAll more).listed d contract hkept, hkept⟩

/-- Atoms are registered on the zero address, where stakes are refused, and come back from it
whatever is registered later. -/
theorem registered_pairs_are_final_of_atoms :
    (∅ : Registry).registerAll [("uatom", Address.zero), ("ustake", Address.zero)] =
        (∅ : Registry).registerAll [("uatom", Address.zero)] ∧
      ((∅ : Registry).registerAll [("uatom", Address.zero)]).contracts.find? "uatom" =
        some Address.zero ∧
      ∀ more, ((∅ : Registry).registerAll ([("uatom", Address.zero), ("ustake", Address.zero)] ++
        more)).denoms.find? Address.zero = some "uatom" := by
  have hrefused : (∅ : Registry).registerAll [("uatom", Address.zero), ("ustake", Address.zero)] =
      (∅ : Registry).registerAll [("uatom", Address.zero)] := by rfl
  have hfind : ((∅ : Registry).registerAll [("uatom", Address.zero)]).contracts.find? "uatom" =
      some Address.zero := by rfl
  obtain ⟨_, _, _, _, hkept, _⟩ := registered_pairs_are_final hrefused
  exact ⟨hrefused, hfind, fun more => (hkept more "uatom" Address.zero hfind).2⟩

/-- A contract carries one denomination only, so distinct denominations have distinct contracts. -/
theorem Linked.contract_ne (h : r.Linked) {other : Denom} {contract' : Address} (hne : d ≠ other)
    (hfind : r.contracts.find? d = some contract)
    (hother : r.contracts.find? other = some contract') : contract ≠ contract' := by
  rintro rfl
  have hpaired := h.paired d contract hfind
  rw [h.paired other contract hother] at hpaired
  exact hne (Option.some.inj hpaired).symm

/-- After any registrations distinct denominations have contracts with distinct texts.  Contracts
are told apart by their texts, so two of them stand for the same bytes exactly if their texts
differ in the case of letters only. -/
theorem registered_contracts_differ {pairs : List (Denom × Address)}
    (h : (∅ : Registry).registerAll pairs = r) {other : Denom} {contract' : Address}
    (hne : d ≠ other) (hfind : r.contracts.find? d = some contract)
    (hother : r.contracts.find? other = some contract') :
    contract.text ≠ contract'.text ∧
      (contract.bytes = contract'.bytes ↔ contract.text.toLower = contract'.text.toLower) := by
  have hlinked : r.Linked := h ▸ linked_empty.registerAll pairs
  refine ⟨fun htext => ?_, Address.bytes_eq_iff⟩
  exact hlinked.contract_ne hne hfind hother (Address.ext htext)

/-- Atoms and stakes are registered on contracts that differ in more than the case of letters. -/
theorem registered_contracts_differ_of_atoms :
    ∃ pairs contract contract',
      ((∅ : Registry).registerAll pairs).contracts.find? "uatom" = some contract ∧
        ((∅ : Registry).registerAll pairs).contracts.find? "ustake" = some contract' ∧
        contract.text ≠ contract'.text ∧ contract.bytes ≠ contract'.bytes := by
  have hatoms : ((∅ : Registry).registerAll [("uatom", Address.zero),
      ("ustake", ⟨"0x8D983cb9388EaC77af0474fA441C4815500Cb7BB", by decide⟩)]).contracts.find?
        "uatom" = some Address.zero := by rfl
  have hstakes : ((∅ : Registry).registerAll [("uatom", Address.zero),
      ("ustake", ⟨"0x8D983cb9388EaC77af0474fA441C4815500Cb7BB", by decide⟩)]).contracts.find?
        "ustake" = some ⟨"0x8D983cb9388EaC77af0474fA441C4815500Cb7BB", by decide⟩ := by rfl
  obtain ⟨htext, hbytes⟩ := registered_contracts_differ rfl (by decide) hatoms hstakes
  refine ⟨_, _, _, hatoms, hstakes, htext, fun hsame => ?_⟩
  have hlower := hbytes.1 hsame
  revert hlower
  decide +kernel

/-- One contract is registered for atoms, and for stakes once more in lower case. -/
theorem registered_contract_in_lower_case :
    ∃ (pairs : List (Denom × Address)) (d other : Denom) (contract contract' : Address),
      d ≠ other ∧
        ((∅ : Registry).registerAll pairs).contracts.find? d = some contract ∧
        ((∅ : Registry).registerAll pairs).contracts.find? other = some contract' ∧
        contract.bytes = contract'.bytes :=
  ⟨[("uatom", ⟨"0x8D983cb9388EaC77af0474fA441C4815500Cb7BB", by decide⟩),
      ("ustake", ⟨"0x8d983cb9388eac77af0474fa441c4815500cb7bb", by decide⟩)],
    "uatom", "ustake", ⟨"0x8D983cb9388EaC77af0474fA441C4815500Cb7BB", by decide⟩,
    ⟨"0x8d983cb9388eac77af0474fa441c4815500cb7bb", by decide⟩, by decide, by rfl, by rfl,
    by decide +kernel⟩

end Registry

end WithdrawalPool
