/-
In which asset a cancellation pays back.  The contract of a transfer is resolved once more when it
is cancelled, so vouchers come back as vouchers only while their contract stays unregistered.
-/
import WithdrawalPool.Proofs.History

namespace WithdrawalPool

/-- The account gets the coin, and nothing of any other denomination moves. -/
structure Ledger.Restores (l : Ledger) (account : AccountId) (coin : Coin) (l' : Ledger) :
    Prop where
  restored : l'.balance account coin.denom = l.balance account coin.denom + coin.amount
  others : ∀ d, d ≠ coin.denom → (∀ other, l'.balance other d = l.balance other d) ∧
    l'.custody d = l.custody d ∧ l'.supply d = l.supply d

namespace Bridge

variable {s s' : Bridge} {t : Transfer} {origin : Origin} {d : Denom}

theorem Cancels.book_of_ne (h : s.Cancels t s' origin d) {other : Denom} (hne : other ≠ d) :
    s'.ledger.book other = s.ledger.book other := by
  rw [h.ledger]
  exact Ledger.book_setBook_of_ne s.ledger hne _

theorem Cancels.balance_sender (h : s.Cancels t s' origin d) :
    s'.ledger.balance t.sender d = s.ledger.balance t.sender d + t.value := by
  rw [h.ledger, Ledger.balance, Ledger.book_setBook_self]
  exact Book.balance_refund _ origin t.sender t.value

/-- A cancellation pays back in one denomination, so it restores a coin of that one only. -/
theorem Cancels.restores_iff (h : s.Cancels t s' origin d) (hpositive : 0 < t.value)
    (submitted : Denom) :
    s.ledger.Restores t.sender ⟨submitted, t.value⟩ s'.ledger ↔ d = submitted := by
  constructor
  · intro hrestores
    by_cases hne : submitted = d
    · exact hne.symm
    · have hkept : s'.ledger.balance t.sender submitted = s.ledger.balance t.sender submitted :=
        congrArg (Book.balance · t.sender) (h.book_of_ne hne)
      have hrestored : s'.ledger.balance t.sender submitted =
          s.ledger.balance t.sender submitted + t.value := hrestores.restored
      rw [hkept] at hrestored
      omega
  · rintro rfl
    refine ⟨h.balance_sender, ?_⟩
    intro other hne
    have hbook := h.book_of_ne hne
    exact ⟨fun account => congrArg (Book.balance · account) hbook,
      congrArg Book.custody hbook, congrArg Book.supply hbook⟩

/-- What a contract carries at the end of a history is what it carried at the start, unless it
was registered on the way. -/
theorem Run.denomOf_eq_iff {start : Bridge} {log : List Deed} (hrun : Run start log s)
    (hregistry : start.registry.Sound) {contract : Address}
    (hstart : start.registry.denomOf contract = (origin, d)) :
    (s.registry.denomOf contract).2 = d ↔
      origin = .native ∨ ∀ other, Deed.registered other contract ∉ log := by
  cases hfind : start.registry.denoms.find? contract with
  | some carried =>
      rw [Registry.denomOf_of_some hfind] at hstart
      obtain ⟨rfl, rfl⟩ := Prod.mk.inj hstart
      rw [Registry.denomOf_of_some (hrun.find?_of_some hfind)]
      simp
  | none =>
      rw [Registry.denomOf_of_none hfind] at hstart
      obtain ⟨rfl, rfl⟩ := Prod.mk.inj hstart
      have hlogged := hrun.find?_of_none hfind
      cases hlater : s.registry.denoms.find? contract with
      | none =>
          have hnever : ∀ other, Deed.registered other contract ∉ log := by
            intro other hmem
            have hfound := (hlogged other).2 hmem
            rw [hlater] at hfound
            contradiction
          rw [Registry.denomOf_of_none hlater]
          exact iff_of_true rfl (Or.inr hnever)
      | some other =>
          have hnative : ¬ other.IsVoucher :=
            (hrun.soundRegistry hregistry).native other contract hlater
          have hne : other ≠ Denom.voucher contract := by
            intro heq
            exact hnative (heq ▸ Denom.isVoucher_voucher contract)
          rw [Registry.denomOf_of_some hlater]
          refine iff_of_false hne ?_
          rintro (horigin | hnever)
          · contradiction
          · exact hnever other ((hlogged other).1 hlater)

/-- A withdrawal that is cancelled is paid back in the denomination it was submitted in exactly
if that denomination is native, or its contract was never registered in the meantime. -/
theorem refund_restores_iff {log between : List Deed} {before after later final : Bridge}
    {env env' : Env} {w : Withdrawal} {id : UInt64} {contract : Address}
    (hbefore : Run empty log before)
    (hsubmit : (submit env w).runFrom before = (.ok id, after))
    (hcontract : before.registry.contractOf w.amount.denom = .ok (origin, contract))
    (hdenom : before.registry.denomOf contract = (origin, w.amount.denom))
    (hbetween : Run after between later)
    (hcancel : (cancel env' id w.sender).runFrom later = (.ok (), final)) :
    later.ledger.Restores w.sender w.total final.ledger ↔
      origin = .native ∨ ∀ d, Deed.registered d contract ∉ between := by
  have hsound : before.store.Sound empty.ids.peek :=
    (Store.sound_empty empty.ids).leads hbefore.leads
  obtain ⟨destination, _, contract', next, hsubmits⟩ := exists_submits hsubmit
  have hsame := hsubmits.resolved
  rw [hcontract] at hsame
  obtain ⟨rfl, rfl⟩ := Prod.mk.inj (Except.ok.inj hsame)
  obtain ⟨t, origin', d, hid, hsender, hcancels⟩ :=
    exists_cancels ((hsound.leads (Serves.submit hsubmit).leads).leads hbetween.leads) hcancel
  -- The transfer that is cancelled is the one that was recorded.
  have ht : t = w.toTransfer id destination contract := by
    have hrecorded := (hsubmits.mem_iff hsound).2 (Or.inl rfl)
    exact (hsound.leads (Serves.submit hsubmit).leads).eq_of_leads hbetween.leads hrecorded
      hcancels.pending hid
  subst ht
  have hpositive : 0 < (w.toTransfer id destination contract).value :=
    Nat.add_pos_left hsubmits.positive _
  have hresolved : (later.registry.denomOf contract).2 = d :=
    congrArg Prod.snd hcancels.resolved
  have hregistry : after.registry = before.registry := hsubmits.registry
  rw [← hregistry] at hdenom
  have hsoundRegistry : after.registry.Sound := by
    rw [hregistry]
    exact hbefore.soundRegistry Registry.sound_empty
  rw [← hbetween.denomOf_eq_iff hsoundRegistry hdenom, hresolved]
  exact hcancels.restores_iff hpositive w.amount.denom

open Sample in
/-- The sample withdrawal is cancelled at once, and its vouchers come back. -/
theorem refund_restores_sample :
    (cancel env 1 alice).runFrom pending = (.ok (), ((cancel env 1 alice).runFrom pending).2) ∧
      pending.ledger.Restores alice withdrawal.total
        ((cancel env 1 alice).runFrom pending).2.ledger := by
  have hfunded : Run empty [.funded alice ⟨Denom.voucher contract, 1000⟩] funded :=
    .done .start (.fund _ _)
  have hsubmit : (submit env withdrawal).runFrom funded = (.ok 1, pending) := by rfl
  have hcontract : funded.registry.contractOf withdrawal.amount.denom =
      .ok (.bridged, contract) := by rfl
  have hdenom : funded.registry.denomOf contract = (.bridged, withdrawal.amount.denom) := by rfl
  have hcancel : (cancel env 1 alice).runFrom pending =
      (.ok (), ((cancel env 1 alice).runFrom pending).2) := by rfl
  have hrestores := refund_restores_iff hfunded hsubmit hcontract hdenom .start hcancel
  exact ⟨hcancel, hrestores.2 (Or.inr fun _ => List.not_mem_nil)⟩

open Sample in
/-- Once the contract of pending vouchers is registered, their sender is paid back in coins that
somebody else had locked. -/
theorem refund_in_another_denomination :
    ∃ (log between : List Deed) (final : Bridge),
      Run empty log funded ∧
      (submit env withdrawal).runFrom funded = (.ok 1, pending) ∧
      funded.registry.contractOf withdrawal.amount.denom = .ok (.bridged, contract) ∧
      funded.registry.denomOf contract = (.bridged, withdrawal.amount.denom) ∧
      Run pending between (mixedOn contract) ∧
      (cancel env 1 withdrawal.sender).runFrom (mixedOn contract) = (.ok (), final) ∧
      ¬ (mixedOn contract).ledger.Restores withdrawal.sender withdrawal.total final.ledger := by
  have hsubmit : (submit env withdrawal).runFrom funded = (.ok 1, pending) := by rfl
  have hregister : pending.registry.register "uatom" contract =
      .ok (listedOn contract).registry := by rfl
  have hatoms : (submit env atoms).runFrom (listedOn contract) = (.ok 2, mixedOn contract) := by
    rfl
  have hstart : Run pending [] pending := .start
  have hlisted : Run pending _ (listedOn contract) :=
    (hstart.done (.fund bob ⟨"uatom", 1000⟩)).done (.register hregister)
  refine ⟨_, _, ((cancel env 1 withdrawal.sender).runFrom (mixedOn contract)).2,
    .done .start (.fund _ _), hsubmit, by rfl, by rfl, hlisted.done (.submit hatoms), by rfl, ?_⟩
  intro hrestores
  have hrestored := hrestores.restored
  revert hrestored
  decide +kernel

end Bridge

end WithdrawalPool
