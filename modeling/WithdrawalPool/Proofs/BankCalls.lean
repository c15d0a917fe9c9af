/-
The calls of the bank, one at a time.  A call takes effect as a whole or leaves the bank as it was.
One that takes effect adds its amount to some readings or takes it from them, and the reverse call
restores them.
-/
import WithdrawalPool.Proofs.Conservation
import WithdrawalPool.Proofs.DenomForm

namespace WithdrawalPool

namespace CustodyCall

/-- The call that takes back what another one did. -/
def reverse : CustodyCall → CustodyCall
  | .lock => .unlock
  | .unlock => .lock
  | .burn => .mint
  | .mint => .burn

/-- How an amount counts in the balance of the account. -/
def inBalance (n : Nat) : CustodyCall → Int
  | .lock => -n
  | .unlock => n
  | .burn | .mint => 0

/-- How an amount counts in what custody holds. -/
def inCustody (n : Nat) : CustodyCall → Int
  | .lock | .mint => n
  | .unlock | .burn => -n

/-- How an amount counts in the supply. -/
def inSupply (n : Nat) : CustodyCall → Int
  | .lock | .unlock => 0
  | .burn => -n
  | .mint => n

theorem inBalance_reverse (n : Nat) (kind : CustodyCall) :
    kind.reverse.inBalance n = -kind.inBalance n := by
  cases kind <;> simp [reverse, inBalance]

theorem inCustody_reverse (n : Nat) (kind : CustodyCall) :
    kind.reverse.inCustody n = -kind.inCustody n := by
  cases kind <;> simp [reverse, inCustody]

theorem inSupply_reverse (n : Nat) (kind : CustodyCall) :
    kind.reverse.inSupply n = -kind.inSupply n := by
  cases kind <;> simp [reverse, inSupply]

end CustodyCall

/-- The call of a kind, with the account where there is one. -/
def Custody.call {L : Type} [Custody L] (account : AccountId) (coin : Coin) :
    CustodyCall → ExceptT CustodyError (StateM L) Unit
  | .lock => Custody.lock account coin
  | .unlock => Custody.unlock account coin
  | .burn => Custody.burn coin
  | .mint => Custody.mint coin

theorem Custody.Keeps.call {L : Type} [Custody L] {p : L → Prop} (h : Keeps p)
    {account : AccountId} {coin : Coin} {kind : CustodyCall} {l l' : L}
    {result : Except CustodyError Unit} (hp : p l)
    (hrun : (Custody.call account coin kind).run l = (result, l')) : p l' := by
  cases kind with
  | lock => exact h.lock hp hrun
  | unlock => exact h.unlock hp hrun
  | burn => exact h.burn hp hrun
  | mint => exact h.mint hp hrun

namespace Tally

universe u

variable {κ : Type u} [Ord κ] [Std.TransOrd κ] [Std.LawfulEqOrd κ] [DecidableEq κ]

theorem amount_insert_eq_add (t : Tally κ) {key : κ} {n : Nat} {change : Int}
    (h : (n : Int) = t.amount key + change) (other : κ) :
    (Tally.amount (t.insert key n) other : Int) =
      t.amount other + if other = key then change else 0 := by
  by_cases hother : other = key
  · rw [hother, amount_insert_self, if_pos rfl, h]
  · rw [amount_insert_of_ne t hother, if_neg hother, Int.add_zero]

end Tally

namespace Book

/-- The call of a kind, on the book of one denomination. -/
def call (b : Book) (account : AccountId) (n : Nat) : CustodyCall → Except Nat Book
  | .lock => b.lock account n
  | .unlock => b.unlock account n
  | .burn => b.burn n
  | .mint => .ok (b.mint n)

/-- Whoever gives up the amount of a call has it. -/
def Covers (b : Book) (account : AccountId) (n : Nat) : CustodyCall → Prop
  | .lock => n ≤ b.balance account
  | .unlock | .burn => n ≤ b.custody
  | .mint => True

/-- The book reads as it does after a call, from `b` to `b'`. -/
structure Shifts (b : Book) (account : AccountId) (n : Nat) (kind : CustodyCall) (b' : Book) :
    Prop where
  balance : ∀ other, (b'.balance other : Int) =
    b.balance other + if other = account then kind.inBalance n else 0
  custody : (b'.custody : Int) = b.custody + kind.inCustody n
  supply : (b'.supply : Int) = b.supply + kind.inSupply n

variable {b b' : Book} {account : AccountId} {n : Nat} {kind : CustodyCall}

theorem exists_call_iff :
    (∃ b', b.call account n kind = .ok b') ↔ b.Covers account n kind := by
  cases kind with
  | lock => simp [call, lock_eq_ok_iff, Covers]
  | unlock => simp [call, unlock_eq_ok_iff, Covers]
  | burn => simp [call, burn_eq_ok_iff, Covers]
  | mint => simp [call, Covers]

/-- A burn takes from the supply as well, since every coin of the book is accounted for. -/
theorem Balanced.shifts_of_call (h : b.Balanced) (hcall : b.call account n kind = .ok b') :
    b.Shifts account n kind b' := by
  cases kind with
  | lock =>
      obtain ⟨hle, rfl⟩ := lock_eq_ok_iff.1 hcall
      refine ⟨Tally.amount_insert_eq_add b.balances ?_, ?_, (Int.add_zero _).symm⟩
      · exact Int.ofNat_sub hle
      · exact Int.natCast_add _ _
  | unlock =>
      obtain ⟨hle, rfl⟩ := unlock_eq_ok_iff.1 hcall
      refine ⟨Tally.amount_insert_eq_add b.balances ?_, ?_, (Int.add_zero _).symm⟩
      · exact Int.natCast_add _ _
      · exact Int.ofNat_sub hle
  | burn =>
      obtain ⟨hcustody, hsupply, hbalances⟩ := h.supply_burn hcall
      refine ⟨fun other => ?_, ?_, ?_⟩
      · rw [balance, hbalances, CustodyCall.inBalance, ite_self, Int.add_zero, balance]
      · rw [CustodyCall.inCustody]
        omega
      · rw [CustodyCall.inSupply]
        omega
  | mint =>
      obtain rfl := Except.ok.inj hcall
      refine ⟨fun other => ?_, Int.natCast_add _ _, Int.natCast_add _ _⟩
      rw [CustodyCall.inBalance, ite_self, Int.add_zero]
      rfl

end Book

namespace Ledger

variable {l l' l'' : Ledger} {account : AccountId} {coin : Coin} {kind : CustodyCall}

theorem checkCoin_bind_eq_ok_iff {rest : Except CustodyError Ledger} :
    (do
      checkCoin coin
      rest) = .ok l' ↔ coin.denom.Valid ∧ rest = .ok l' := by
  rw [Except.bind_eq_ok_iff, exists_and_right, Except.exists_eq_ok_unit, checkCoin,
    Except.mapError_eq_ok_iff, Denom.check_eq_ok_iff]

theorem setBook_eq_ok_iff {x : Except Nat Book} {refused : Nat → CustodyError} :
    (match x with
      | .ok b => return l.setBook coin.denom b
      | .error available => throw (refused available) : Except CustodyError Ledger) = .ok l' ↔
      ∃ b, x = .ok b ∧ l' = l.setBook coin.denom b := by
  cases x with
  | ok b => simp [pure, Except.pure, eq_comm]
  | error available => exact iff_of_false nofun nofun

theorem unless_disabled_eq_ok_iff {enabled : Bool} {rest : Except CustodyError Ledger} :
    (do
      unless enabled do throw (CustodyError.disabled kind)
      rest) = .ok l' ↔ enabled = true ∧ rest = .ok l' := by
  cases enabled with
  | false => exact iff_of_false nofun nofun
  | true => exact (and_iff_right rfl).symm

/-- A call takes effect if it may be made, its coin is valid and the book of the coin has the
amount.  It replaces that book and no other. -/
theorem call_eq_ok_iff : l.call account coin kind = .ok l' ↔
    l.switches.allows kind = true ∧ coin.denom.Valid ∧
      ∃ b, (l.book coin.denom).call account coin.amount kind = .ok b ∧
        l' = l.setBook coin.denom b := by
  cases kind with
  | lock =>
      rw [SupplySwitches.allows, and_iff_right rfl]
      exact checkCoin_bind_eq_ok_iff.trans (and_congr_right fun _ => setBook_eq_ok_iff)
  | unlock =>
      rw [SupplySwitches.allows, and_iff_right rfl]
      exact checkCoin_bind_eq_ok_iff.trans (and_congr_right fun _ => setBook_eq_ok_iff)
  | burn =>
      refine unless_disabled_eq_ok_iff.trans (and_congr_right fun _ => ?_)
      exact checkCoin_bind_eq_ok_iff.trans (and_congr_right fun _ => setBook_eq_ok_iff)
  | mint =>
      refine unless_disabled_eq_ok_iff.trans (and_congr_right fun _ => ?_)
      refine checkCoin_bind_eq_ok_iff.trans (and_congr_right fun _ => ?_)
      simp [Book.call, pure, Except.pure, eq_comm]

/-- A bank answers a call and stays as it was if it refuses it. -/
theorem run_call (account : AccountId) (coin : Coin) (kind : CustodyCall) (l : Ledger) :
    (Custody.call account coin kind).run l = (attempt (·.call account coin kind)).run l := by
  cases kind <;> rfl

theorem run_call_eq_ok_iff :
    (Custody.call account coin kind).run l = (.ok (), l') ↔
      l.call account coin kind = .ok l' := by
  rw [run_call]
  exact ⟨fun h => run_attempt_eq_ok h, fun h => run_attempt_of_eq_ok h⟩

/-- Whoever gives up the amount of a call has it. -/
def Covers (l : Ledger) (account : AccountId) (coin : Coin) : CustodyCall → Prop
  | .lock => coin.amount ≤ l.balance account coin.denom
  | .unlock | .burn => coin.amount ≤ l.custody coin.denom
  | .mint => True

instance (l : Ledger) (account : AccountId) (coin : Coin) :
    (kind : CustodyCall) → Decidable (l.Covers account coin kind)
  | .lock => inferInstanceAs (Decidable (_ ≤ _))
  | .unlock | .burn => inferInstanceAs (Decidable (_ ≤ _))
  | .mint => inferInstanceAs (Decidable True)

/-- The bank reads as it does after a call, from `l` to `l'`.  The amount counts in the readings of
one denomination, and among balances in the one of the account. -/
structure Shifts (l : Ledger) (account : AccountId) (coin : Coin) (kind : CustodyCall)
    (l' : Ledger) : Prop where
  switches : l'.switches = l.switches
  balance : ∀ other d, (l'.balance other d : Int) = l.balance other d +
    if other = account ∧ d = coin.denom then kind.inBalance coin.amount else 0
  custody : ∀ d, (l'.custody d : Int) =
    l.custody d + if d = coin.denom then kind.inCustody coin.amount else 0
  supply : ∀ d, (l'.supply d : Int) =
    l.supply d + if d = coin.denom then kind.inSupply coin.amount else 0

/-- Nothing that can be read from the banks tells them apart. -/
structure ReadsAlike (l l' : Ledger) : Prop where
  balance : ∀ account d, l'.balance account d = l.balance account d
  custody : ∀ d, l'.custody d = l.custody d
  supply : ∀ d, l'.supply d = l.supply d

theorem covers_iff :
    l.Covers account coin kind ↔ (l.book coin.denom).Covers account coin.amount kind := by
  cases kind <;> rfl

theorem exists_run_call_iff :
    (∃ l', (Custody.call account coin kind).run l = (.ok (), l')) ↔
      l.switches.allows kind = true ∧ coin.denom.Valid ∧ l.Covers account coin kind := by
  rw [covers_iff, ← Book.exists_call_iff]
  simp only [run_call_eq_ok_iff, call_eq_ok_iff]
  constructor
  · rintro ⟨_, hallowed, hvalid, b, hb, _⟩
    exact ⟨hallowed, hvalid, b, hb⟩
  · rintro ⟨hallowed, hvalid, b, hb⟩
    exact ⟨_, hallowed, hvalid, b, hb, rfl⟩

theorem shifts_setBook {b : Book}
    (h : (l.book coin.denom).Shifts account coin.amount kind b) :
    l.Shifts account coin kind (l.setBook coin.denom b) where
  switches := rfl
  balance other d := by
    by_cases hd : d = coin.denom
    · subst hd
      simp only [and_true]
      rw [balance, book_setBook_self]
      exact h.balance other
    · rw [balance, book_setBook_of_ne l hd, if_neg fun h => hd h.2, Int.add_zero]
      rfl
  custody d := by
    by_cases hd : d = coin.denom
    · subst hd
      rw [custody, book_setBook_self, if_pos rfl]
      exact h.custody
    · rw [custody, book_setBook_of_ne l hd, if_neg hd, Int.add_zero]
      rfl
  supply d := by
    by_cases hd : d = coin.denom
    · subst hd
      rw [supply, book_setBook_self, if_pos rfl]
      exact h.supply
    · rw [supply, book_setBook_of_ne l hd, if_neg hd, Int.add_zero]
      rfl

theorem Balanced.shifts_of_call (h : l.Balanced) (hcall : l.call account coin kind = .ok l') :
    l.Shifts account coin kind l' := by
  obtain ⟨_, _, b, hb, rfl⟩ := call_eq_ok_iff.1 hcall
  exact shifts_setBook ((h coin.denom).shifts_of_call hb)

/-- What a call has added somewhere can be taken from there. -/
theorem Shifts.covers_reverse (h : l.Shifts account coin kind l') :
    l'.Covers account coin kind.reverse := by
  have hbalance := h.balance account coin.denom
  have hcustody := h.custody coin.denom
  rw [if_pos ⟨rfl, rfl⟩] at hbalance
  rw [if_pos rfl] at hcustody
  cases kind with
  | lock =>
      rw [CustodyCall.inCustody] at hcustody
      rw [CustodyCall.reverse, Covers]
      omega
  | unlock =>
      rw [CustodyCall.inBalance] at hbalance
      rw [CustodyCall.reverse, Covers]
      omega
  | burn => exact trivial
  | mint =>
      rw [CustodyCall.inCustody] at hcustody
      rw [CustodyCall.reverse, Covers]
      omega

/-- Balances, custody and supplies are read alike whatever the switches are set to. -/
theorem readsAlike_switches (l : Ledger) (switches : SupplySwitches) :
    l.ReadsAlike { l with switches := switches } where
  balance _ _ := rfl
  custody _ := rfl
  supply _ := rfl

theorem Shifts.readsAlike {between : Ledger} (h : l.Shifts account coin kind l')
    (hbetween : l'.ReadsAlike between) (hback : between.Shifts account coin kind.reverse l'') :
    l.ReadsAlike l'' where
  balance other d := by
    have hthere := h.balance other d
    have hback := hback.balance other d
    rw [hbetween.balance, CustodyCall.inBalance_reverse] at hback
    split_ifs at hthere hback <;> omega
  custody d := by
    have hthere := h.custody d
    have hback := hback.custody d
    rw [hbetween.custody, CustodyCall.inCustody_reverse] at hback
    split_ifs at hthere hback <;> omega
  supply d := by
    have hthere := h.supply d
    have hback := hback.supply d
    rw [hbetween.supply, CustodyCall.inSupply_reverse] at hback
    split_ifs at hthere hback <;> omega

theorem ReadsAlike.covers (h : l.ReadsAlike l') (hcovers : l.Covers account coin kind) :
    l'.Covers account coin kind := by
  cases kind with
  | lock => rwa [Covers, h.balance]
  | unlock => rwa [Covers, h.custody]
  | burn => rwa [Covers, h.custody]
  | mint => exact trivial

/-- A call that took effect is undone by its reverse, as soon as that may be made. -/
theorem Balanced.exists_run_reverse (h : l.Balanced)
    (hrun : (Custody.call account coin kind).run l = (.ok (), l')) {switches : SupplySwitches}
    (hallowed : switches.allows kind.reverse = true) :
    ∃ l'', (Custody.call account coin kind.reverse).run { l' with switches := switches } =
      (.ok (), l'') ∧ l.ReadsAlike l'' := by
  have hcall := run_call_eq_ok_iff.1 hrun
  have hshifts := h.shifts_of_call hcall
  have hbetween := l'.readsAlike_switches switches
  have hafter : l'.Balanced := keeps_balanced.call h hrun
  have hbalanced : ({ l' with switches := switches } : Ledger).Balanced := hafter
  obtain ⟨_, hvalid, _⟩ := call_eq_ok_iff.1 hcall
  obtain ⟨l'', hback⟩ := exists_run_call_iff.2
    ⟨hallowed, hvalid, hbetween.covers hshifts.covers_reverse⟩
  exact ⟨l'', hback, hshifts.readsAlike hbetween
    (hbalanced.shifts_of_call (run_call_eq_ok_iff.1 hback))⟩

/-- Whatever happened to the bank, a call takes effect exactly if it may be made, its coin is valid
and whoever gives up the amount has it.  A call that is refused leaves the bank as it was.  One that
takes effect counts its amount in two readings of its denomination and leaves all others, and the
reverse call can be made right after it, whatever the switches are set to as long as they allow it,
and restores every reading. -/
theorem calls_take_effect_as_a_whole (hreach : Relation.ReflTransGen Operation ∅ l)
    (account : AccountId) (coin : Coin) (kind : CustodyCall) :
    ((∃ l', (Custody.call account coin kind).run l = (.ok (), l')) ↔
      l.switches.allows kind = true ∧ coin.denom.Valid ∧ l.Covers account coin kind) ∧
      (∀ e l', (Custody.call account coin kind).run l = (.error e, l') → l' = l) ∧
      ∀ l', (Custody.call account coin kind).run l = (.ok (), l') →
        l.Shifts account coin kind l' ∧
          ∀ switches : SupplySwitches, switches.allows kind.reverse = true →
            ∃ l'', (Custody.call account coin kind.reverse).run { l' with switches := switches } =
              (.ok (), l'') ∧ l.ReadsAlike l'' := by
  have hbalanced := balanced_empty.operations hreach
  refine ⟨exists_run_call_iff, fun e l' hrun => ?_, fun l' hrun => ?_⟩
  · rw [run_call] at hrun
    exact run_attempt_eq_error hrun
  · exact ⟨hbalanced.shifts_of_call (run_call_eq_ok_iff.1 hrun),
      fun switches hallowed => hbalanced.exists_run_reverse hrun hallowed⟩

open Sample in
/-- An account has its last coin locked, and unlocked again while vouchers can neither be burned nor
minted.  One coin more cannot be locked. -/
theorem calls_take_effect_as_a_whole_of_sample :
    (∃ locked unlocked,
      (Custody.call alice ⟨Denom.voucher contract, 1000⟩ .lock).run funded.ledger =
        (.ok (), locked) ∧
      locked.balance alice (Denom.voucher contract) = 0 ∧
      (Custody.call alice ⟨Denom.voucher contract, 1000⟩ .unlock).run
        { locked with switches := ⟨false, false⟩ } = (.ok (), unlocked) ∧
      funded.ledger.ReadsAlike unlocked) ∧
      ¬ ∃ l', (Custody.call alice ⟨Denom.voucher contract, 1001⟩ .lock).run funded.ledger =
        (.ok (), l') := by
  have hfund : Operation ∅ funded.ledger := .fund alice ⟨Denom.voucher contract, 1000⟩
  have hvalid : (Denom.voucher contract).Valid := by decide
  have hcall := calls_take_effect_as_a_whole (.single hfund) alice
  constructor
  · obtain ⟨hsucceeds, _, heffect⟩ := hcall ⟨Denom.voucher contract, 1000⟩ .lock
    obtain ⟨locked, hlock⟩ := hsucceeds.2 ⟨rfl, hvalid, by decide +kernel⟩
    obtain ⟨hshifts, hreverse⟩ := heffect locked hlock
    obtain ⟨unlocked, hunlock, halike⟩ := hreverse ⟨false, false⟩ rfl
    have hbefore : funded.ledger.balance alice (Denom.voucher contract) = 1000 := by decide +kernel
    have hbalance := hshifts.balance alice (Denom.voucher contract)
    rw [hbefore, if_pos ⟨rfl, rfl⟩] at hbalance
    exact ⟨locked, unlocked, hlock, Int.ofNat_inj.1 hbalance, hunlock, halike⟩
  · intro hsucceeds
    obtain ⟨_, _, hcovers⟩ := (hcall ⟨Denom.voucher contract, 1001⟩ .lock).1.1 hsucceeds
    exact absurd hcovers (by decide +kernel)

end Ledger

end WithdrawalPool
