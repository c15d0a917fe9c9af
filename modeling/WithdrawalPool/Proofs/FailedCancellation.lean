/-
What a cancellation leaves behind when it fails.  The bank refuses a refund before it changes
anything, and only for want of minting or of custody, so all that a failure can change is that the
transfer is gone.  That holds of every pool whose transfers are filed under their contracts.
-/
import WithdrawalPool.Proofs.Ownership
import WithdrawalPool.Proofs.Resolution

namespace WithdrawalPool

namespace Book

theorem unlock_of_not_covered {b : Book} {n : Nat} (h : b.custody < n) (account : AccountId) :
    b.unlock account n = .error b.custody := by
  rw [unlock, if_neg (Nat.not_le.2 h)]

end Book

namespace Ledger

/-- The bank keeps back coins that it would pay out: vouchers while none can be minted, and native
coins that custody does not cover. -/
inductive Withholds (l : Ledger) (coin : Coin) : Origin → CustodyError → Prop
  | notMinted (hmint : l.switches.mint = false) : Withholds l coin .bridged (.disabled .mint)
  | notCovered (hcustody : l.custody coin.denom < coin.amount) :
      Withholds l coin .native
        (.insufficientCustody coin.denom coin.amount (l.custody coin.denom))

variable {l l' : Ledger} {account : AccountId} {coin : Coin} {origin : Origin} {e : CustodyError}

theorem Withholds.ne_invalidCoin (h : l.Withholds coin origin e) (cause : DenomError) :
    e ≠ .invalidCoin cause := by
  cases h with
  | notMinted => nofun
  | notCovered => nofun

theorem mint_of_disabled (hswitch : l.switches.mint = false) :
    (Custody.mint coin).run l = (.error (.disabled .mint), l) := by
  have hmint : l.mint coin = .error (.disabled .mint) := by
    rw [mint, hswitch]
    rfl
  exact run_attempt_of_eq_error hmint

theorem unlock_of_not_covered (hvalid : coin.denom.Valid)
    (hcustody : l.custody coin.denom < coin.amount) :
    (Custody.unlock account coin).run l =
      (.error (.insufficientCustody coin.denom coin.amount (l.custody coin.denom)), l) := by
  have hunlock : l.unlock account coin =
      .error (.insufficientCustody coin.denom coin.amount (l.custody coin.denom)) := by
    rw [unlock, checkCoin_of_valid hvalid, Book.unlock_of_not_covered hcustody]
    rfl
  exact run_attempt_of_eq_error hunlock

/-- A refund of a valid coin is refused before anything is minted or paid out. -/
theorem withholds_of_refundRefused (hvalid : coin.denom.Valid)
    (h : RefundRefused account coin l origin e l') : l' = l ∧ l.Withholds coin origin e := by
  cases h with
  | native hunlock =>
      by_cases hcovered : coin.amount ≤ l.custody coin.denom
      · rw [unlock_of_covered hvalid hcovered] at hunlock
        cases hunlock
      · have hcustody := Nat.not_le.1 hcovered
        rw [unlock_of_not_covered hvalid hcustody] at hunlock
        obtain ⟨herror, rfl⟩ := Prod.mk.inj hunlock
        obtain rfl := Except.error.inj herror
        exact ⟨rfl, .notCovered hcustody⟩
  | mint hmint =>
      cases hswitch : l.switches.mint with
      | true =>
          rw [mint_of_enabled hvalid hswitch] at hmint
          cases hmint
      | false =>
          rw [mint_of_disabled hswitch] at hmint
          obtain ⟨herror, rfl⟩ := Prod.mk.inj hmint
          obtain rfl := Except.error.inj herror
          exact ⟨rfl, .notMinted hswitch⟩
  | unlock hmint hunlock =>
      -- What was minted is in custody, so the unlock that follows a mint is covered.
      obtain rfl := mint_eq_ok (run_attempt_eq_ok hmint)
      rw [unlock_of_covered hvalid] at hunlock
      · cases hunlock
      · rw [custody, book_setBook_self]
        exact Nat.le_add_left _ _

end Ledger

/-- The failures of a cancellation that find fault with its arguments or with the transfer. -/
def PoolError.RejectsCancellation : PoolError → Prop
  | .invalidArgument _ => True
  | .unauthorized _ _ => True
  | .notFound _ => True
  | .corrupted _ => True
  | _ => False

namespace Bridge

variable {s s' : Bridge} {env : Env} {id : UInt64} {requester : AccountId} {e : PoolError}

/-- A cancellation fails before it changes anything, or the bank keeps the coins back and the
transfer that was found is gone. -/
theorem failure_of_cancel (hfiled : s.pool.Filed) (hlinked : s.registry.Linked)
    (h : (cancel env id requester).runFrom s = (.error e, s')) :
    (s' = s ∧ e.RejectsCancellation) ∨
      ∃ t origin d cause, e = .ledger cause ∧ s.pool.getById id = .ok t ∧
        s.registry.denomOf t.contract = (origin, d) ∧
        s.ledger.Withholds ⟨d, t.value⟩ origin cause ∧ s.pool.Loses t s'.pool ∧
        s' = { s with pool := s'.pool } := by
  cases cancelEffect_of_runFrom h with
  | refused => exact Or.inl ⟨rfl, trivial⟩
  | notFound => exact Or.inl ⟨rfl, trivial⟩
  | senderMissing => exact Or.inl ⟨rfl, trivial⟩
  | unauthorized => exact Or.inl ⟨rfl, trivial⟩
  | inconsistent => exact Or.inl ⟨rfl, trivial⟩
  | unresolved _ _ _ _ hresolve => exact absurd (congrArg Prod.fst hresolve) nofun
  | @misfiled t origin d registry _ hclaims hremove =>
      obtain ⟨ht, rfl⟩ := Pool.getById_eq_ok hclaims.found
      obtain ⟨hnone, _⟩ := Pool.remove_eq_error_iff.1 hremove
      have hfind : s.pool.find? t.fee.contract ⟨t.fee.amount, t.id⟩ = some t :=
        hfiled.find?_of_mem ht
      rw [hfind] at hnone
      contradiction
  | @refundRefused t taken origin d registry pool cause ledger hclaims hremove hrefund =>
      obtain ⟨ht, rfl⟩ := Pool.getById_eq_ok hclaims.found
      obtain rfl := hfiled.taken_eq ht hremove
      obtain ⟨hdenom, rfl⟩ := denomOf_of_claims hclaims
      have hvalid := hlinked.valid_denomOf taken.contract
      rw [hdenom] at hvalid
      obtain ⟨rfl, hwithholds⟩ := Ledger.withholds_of_refundRefused hvalid hrefund
      exact Or.inr ⟨taken, origin, d, cause, rfl, hclaims.found, hdenom, hwithholds,
        Pool.loses_of_remove hremove, rfl⟩

/-- However a pool and its registry came about, and whatever the bank holds, a cancellation that
fails leaves the bank, the counter, the registry and the log as they were.  It leaves the pool as
it was too, unless the bank keeps the coins back: then the transfer that was found under the id is
gone, and no other.  The bank does so only while no vouchers can be minted or where custody does
not cover native coins, and no cancellation blames the coin or the place of the transfer, or
aborts. -/
theorem failed_cancel_takes_one_at_most {pairs : List (Denom × Address)}
    (hbuilt : Store.Built s.store) (hregistry : (∅ : Registry).registerAll pairs = s.registry)
    (h : (cancel env id requester).runFrom s = (.error e, s')) :
    (s'.ledger = s.ledger ∧ s'.ids = s.ids ∧ s'.registry = s.registry ∧ s'.events = s.events) ∧
      ((∀ cause, e ≠ .ledger cause) → s' = s) ∧
      (∀ cause, e = .ledger cause → ∃ t origin d, s.pool.getById id = .ok t ∧
        s.registry.denomOf t.contract = (origin, d) ∧
        s.ledger.Withholds ⟨d, t.value⟩ origin cause ∧ s.pool.Loses t s'.pool) ∧
      (∀ cause, e ≠ .ledger (.invalidCoin cause)) ∧ (∀ other, e ≠ .notInPool other) ∧
      (∀ what, e ≠ .duplicate what) ∧ ∀ fault, e ≠ .abort fault := by
  have hlinked : s.registry.Linked := hregistry ▸ Registry.linked_empty.registerAll pairs
  rcases failure_of_cancel hbuilt.filed hlinked h with ⟨rfl, hrejects⟩ |
    ⟨t, origin, d, cause, rfl, hfound, hdenom, hwithholds, hloses, hkept⟩
  · have hne {other : PoolError} (hother : ¬ other.RejectsCancellation) : e ≠ other := by
      rintro rfl
      exact hother hrejects
    exact ⟨⟨rfl, rfl, rfl, rfl⟩, fun _ => rfl, fun _ heq => absurd heq (hne not_false),
      fun _ => hne not_false, fun _ => hne not_false, fun _ => hne not_false,
      fun _ => hne not_false⟩
  · refine ⟨?_, fun hnot => absurd rfl (hnot cause), ?_, ?_, nofun, nofun, nofun⟩
    · rw [hkept]
      exact ⟨rfl, rfl, rfl, rfl⟩
    · rintro _ ⟨⟩
      exact ⟨t, origin, d, hfound, hdenom, hwithholds, hloses⟩
    · rintro refused ⟨⟩
      exact hwithholds.ne_invalidCoin refused rfl

open Sample in
/-- While no vouchers can be minted, a cancellation of the sample withdrawal takes it out and pays
nothing. -/
theorem failed_cancel_takes_one_at_most_of_sample :
    (cancel Sample.env 1 alice).runFrom unmintable =
        (.error (.ledger (.disabled .mint)), { unmintable with pool := ∅ }) ∧
      ∃ t, unmintable.pool.getById 1 = .ok t ∧ unmintable.pool.Loses t ∅ := by
  have hsubmit : Store.Step ⟨∅, {}⟩ (.submit Sample.env withdrawal) unmintable.store :=
    Store.Step.submit Sample.env withdrawal funded rfl
  have hbuilt : Store.Built unmintable.store := .called (.start {}) hsubmit
  have hregistry : (∅ : Registry).registerAll [] = unmintable.registry := by rfl
  have hcancel : (cancel Sample.env 1 alice).runFrom unmintable =
      (.error (.ledger (.disabled .mint)), { unmintable with pool := ∅ }) := by rfl
  obtain ⟨_, _, hwithheld, _⟩ := failed_cancel_takes_one_at_most hbuilt hregistry hcancel
  obtain ⟨t, _, _, hfound, _, _, hloses⟩ := hwithheld _ rfl
  exact ⟨hcancel, t, hfound, hloses⟩

end Bridge

end WithdrawalPool
