/-
What the operations of the bank do to the book of one denomination.  A collection and a refund
touch no other book, and every coin of a book stays accounted for.
-/
import WithdrawalPool.Proofs.Cancellation
import WithdrawalPool.Proofs.Submission

namespace WithdrawalPool

universe u v

namespace SortedMap

variable {κ : Type u} {α : Type v} [Ord κ] [Std.LawfulEqOrd κ] [Std.TransOrd κ]

/-- Changes the value at a key, which is `start` where there is none yet. -/
def adjust (m : SortedMap κ α) (start : α) (key : κ) (f : α → α) : SortedMap κ α :=
  m.insert key (f ((m.find? key).getD start))

/-- Changes at different keys commute, and changes at one key do where the changes of the value
there do. -/
theorem adjust_comm (m : SortedMap κ α) (start : α) {left right : κ} {f g : α → α}
    (h : left = right →
      g (f ((m.find? left).getD start)) = f (g ((m.find? left).getD start))) :
    (m.adjust start left f).adjust start right g =
      (m.adjust start right g).adjust start left f := by
  by_cases heq : left = right
  · subst heq
    simp only [adjust, find?_insert_self, Option.getD_some, insert_insert, h]
  · rw [adjust, adjust, find?_insert_of_ne _ (Ne.symm heq), insert_comm _ heq, adjust, adjust,
      find?_insert_of_ne _ heq]

end SortedMap

namespace Tally

variable {κ : Type u} [Ord κ] [Std.LawfulEqOrd κ] [Std.TransOrd κ]

theorem total_eq_amount_add (t : Tally κ) (key : κ) :
    t.total = t.amount key + Tally.total (t.erase key) := by
  cases hfind : t.find? key with
  | none =>
      rw [SortedMap.erase_of_find?_eq_none hfind, amount, hfind, Option.getD_none, Nat.zero_add]
  | some n =>
      have hperm := (SortedMap.perm_entries_erase hfind).map Prod.snd
      have hsum := hperm.sum_nat
      rw [List.map_cons, List.sum_cons] at hsum
      rw [amount, hfind, Option.getD_some]
      exact hsum

theorem amount_le_total (t : Tally κ) (key : κ) : t.amount key ≤ t.total := by
  rw [t.total_eq_amount_add key]
  exact Nat.le_add_right _ _

theorem total_insert (t : Tally κ) (key : κ) (n : Nat) :
    Tally.total (t.insert key n) + t.amount key = t.total + n := by
  have hnew := total_eq_amount_add (t.insert key n) key
  have hold := t.total_eq_amount_add key
  rw [amount_insert_self, SortedMap.erase_insert] at hnew
  omega

theorem total_credit (t : Tally κ) (key : κ) (n : Nat) :
    (t.credit key n).total = t.total + n := by
  have hinsert := t.total_insert key (t.amount key + n)
  rw [credit]
  omega

theorem credit_right_comm (t : Tally κ) (left right : κ) (m n : Nat) :
    (t.credit left m).credit right n = (t.credit right n).credit left m :=
  t.adjust_comm 0 (f := (· + m)) (g := (· + n)) fun _ => Nat.add_right_comm _ m n

end Tally

namespace Book

variable {b b' : Book} {account : AccountId} {n : Nat}

theorem lock_eq_ok_iff :
    b.lock account n = .ok b' ↔ n ≤ b.balance account ∧
      b' = { b with
        balances := b.balances.insert account (b.balance account - n)
        custody := b.custody + n } := by
  unfold balance
  by_cases hle : n ≤ b.balances.amount account
  · simp [lock, Tally.debit, hle, eq_comm]
  · simp [lock, Tally.debit, hle]

theorem unlock_eq_ok_iff :
    b.unlock account n = .ok b' ↔ n ≤ b.custody ∧
      b' = { b with balances := b.balances.credit account n, custody := b.custody - n } := by
  by_cases hle : n ≤ b.custody
  · simp [unlock, hle, eq_comm]
  · simp [unlock, hle]

theorem burn_eq_ok_iff :
    b.burn n = .ok b' ↔ n ≤ b.custody ∧
      b' = { b with
        custody := b.custody - n
        supply := if n ≤ b.supply then b.supply - n else b.supply } := by
  by_cases hle : n ≤ b.custody
  · simp [burn, hle, eq_comm]
  · simp [burn, hle]

/-- The book once an account has paid.  Native coins stay in custody and vouchers are gone. -/
def collect (b : Book) : Origin → AccountId → Nat → Book
  | .native, account, n =>
    { b with
      balances := b.balances.insert account (b.balance account - n)
      custody := b.custody + n }
  | .bridged, account, n =>
    { b with
      balances := b.balances.insert account (b.balance account - n)
      supply := if n ≤ b.supply then b.supply - n else b.supply }

/-- The book once an account is paid back.  Native coins come out of custody and vouchers are
new. -/
def refund (b : Book) : Origin → AccountId → Nat → Book
  | .native, account, n =>
    { b with balances := b.balances.credit account n, custody := b.custody - n }
  | .bridged, account, n =>
    { b with balances := b.balances.credit account n, supply := b.supply + n }

theorem balance_refund (b : Book) (origin : Origin) (account : AccountId) (n : Nat) :
    (b.refund origin account n).balance account = b.balance account + n := by
  cases origin <;> exact Tally.amount_credit_self b.balances account n

theorem balance_refund_of_ne (b : Book) (origin : Origin) {account other : AccountId}
    (h : other ≠ account) (n : Nat) :
    (b.refund origin account n).balance other = b.balance other := by
  cases origin <;> exact Tally.amount_credit_of_ne b.balances h n

/-- Refunds of one denomination may be made in any order. -/
theorem refund_right_comm (b : Book) (origin origin' : Origin) (account account' : AccountId)
    (m n : Nat) : (b.refund origin account m).refund origin' account' n =
      (b.refund origin' account' n).refund origin account m := by
  have hbalances := b.balances.credit_right_comm account account' m n
  cases origin with
  | native =>
      cases origin' with
      | native =>
          simp only [refund, hbalances]
          rw [Nat.sub_right_comm]
      | bridged => simp only [refund, hbalances]
  | bridged =>
      cases origin' with
      | native => simp only [refund, hbalances]
      | bridged =>
          simp only [refund, hbalances]
          rw [Nat.add_right_comm]

theorem balanced_empty : Balanced {} := rfl

theorem Balanced.fund (h : b.Balanced) (account : AccountId) (n : Nat) :
    (b.fund account n).Balanced := by
  change b.supply + n = b.custody + (b.balances.credit account n).total
  rw [Tally.total_credit, h]
  omega

theorem Balanced.le_supply (h : b.Balanced) (hle : n ≤ b.balance account) : n ≤ b.supply := by
  have hbalance : b.balance account ≤ b.balances.total := b.balances.amount_le_total account
  rw [Balanced] at h
  omega

theorem Balanced.supply_collect (h : b.Balanced) (hle : n ≤ b.balance account) :
    (b.collect .bridged account n).supply + n = b.supply := by
  have hsupply := h.le_supply hle
  change (if n ≤ b.supply then b.supply - n else b.supply) + n = b.supply
  rw [if_pos hsupply]
  omega

theorem Balanced.collect (h : b.Balanced) (origin : Origin) (hle : n ≤ b.balance account) :
    (b.collect origin account n).Balanced := by
  have htotal := b.balances.total_insert account (b.balance account - n)
  have hamount : b.balances.amount account = b.balance account := rfl
  rw [Balanced] at h
  cases origin with
  | native =>
      change b.supply = b.custody + n + Tally.total (b.balances.insert account _)
      omega
  | bridged =>
      have hsupply := Balanced.supply_collect h hle
      change (b.collect .bridged account n).supply =
        b.custody + Tally.total (b.balances.insert account _)
      omega

theorem Balanced.refund (h : b.Balanced) (origin : Origin) (account : AccountId)
    (hle : origin = .native → n ≤ b.custody) : (b.refund origin account n).Balanced := by
  have htotal := b.balances.total_credit account n
  rw [Balanced] at h
  cases origin with
  | native =>
      have hcustody := hle rfl
      change b.supply = b.custody - n + (b.balances.credit account n).total
      omega
  | bridged =>
      change b.supply + n = b.custody + (b.balances.credit account n).total
      omega

end Book

namespace Ledger

variable {l l' : Ledger} {account : AccountId} {coin : Coin}

theorem run_attempt_eq_ok {change : Ledger → Except CustodyError Ledger}
    (h : (attempt change).run l = (.ok (), l')) : change l = .ok l' := by
  change attempt change l = _ at h
  unfold attempt at h
  split at h
  next after hchange =>
    cases h
    exact hchange
  next => cases h

theorem run_attempt_of_eq_ok {change : Ledger → Except CustodyError Ledger}
    (h : change l = .ok l') : (attempt change).run l = (.ok (), l') := by
  change attempt change l = _
  rw [attempt, h]

theorem run_attempt_of_eq_error {change : Ledger → Except CustodyError Ledger} {e : CustodyError}
    (h : change l = .error e) : (attempt change).run l = (.error e, l) := by
  change attempt change l = _
  rw [attempt, h]

theorem run_attempt_eq_error {change : Ledger → Except CustodyError Ledger} {e : CustodyError}
    (h : (attempt change).run l = (.error e, l')) : l' = l := by
  change attempt change l = _ at h
  unfold attempt at h
  split at h
  next => cases h
  next =>
    cases h
    rfl

theorem setBook_setBook (l : Ledger) (d : Denom) (b b' : Book) :
    (l.setBook d b).setBook d b' = l.setBook d b' := by
  unfold setBook
  rw [SortedMap.insert_insert]

/-- Changes the book of one denomination. -/
def update (l : Ledger) (d : Denom) (f : Book → Book) : Ledger := l.setBook d (f (l.book d))

theorem update_comm (l : Ledger) {d d' : Denom} {f g : Book → Book}
    (h : d = d' → g (f (l.book d)) = f (g (l.book d))) :
    (l.update d f).update d' g = (l.update d' g).update d f :=
  congrArg (fun books => { l with books := books }) (l.books.adjust_comm {} h)

/-- What holds of the new book and of all others holds of all books. -/
theorem forall_book_setBook {p : Denom → Book → Prop} {d : Denom} {b : Book} (hself : p d b)
    (hother : ∀ other, other ≠ d → p other (l.book other)) (other : Denom) :
    p other ((l.setBook d b).book other) := by
  by_cases hd : other = d
  · rw [hd, book_setBook_self]
    exact hself
  · rw [book_setBook_of_ne l hd]
    exact hother other hd

theorem setBook_of_checkCoin_eq_ok {x : Except Nat Book} {refused : Nat → CustodyError}
    (h : (do
      checkCoin coin
      match x with
      | .ok b => return l.setBook coin.denom b
      | .error available => throw (refused available)) = Except.ok l') :
    ∃ b, x = .ok b ∧ l' = l.setBook coin.denom b := by
  obtain ⟨_, _, hrest⟩ := Except.bind_eq_ok_iff.1 h
  cases x with
  | ok b => exact ⟨b, rfl, (Except.ok.inj hrest).symm⟩
  | error available => contradiction

theorem lock_eq_ok (h : l.lock account coin = .ok l') :
    ∃ b, (l.book coin.denom).lock account coin.amount = .ok b ∧ l' = l.setBook coin.denom b :=
  setBook_of_checkCoin_eq_ok h

theorem unlock_eq_ok (h : l.unlock account coin = .ok l') :
    ∃ b, (l.book coin.denom).unlock account coin.amount = .ok b ∧ l' = l.setBook coin.denom b :=
  setBook_of_checkCoin_eq_ok h

theorem burn_eq_ok (h : l.burn coin = .ok l') :
    ∃ b, (l.book coin.denom).burn coin.amount = .ok b ∧ l' = l.setBook coin.denom b := by
  by_cases hswitch : l.switches.burn = true
  · simp only [burn, hswitch, ↓reduceIte] at h
    exact setBook_of_checkCoin_eq_ok h
  · simp only [burn, hswitch, Bool.false_eq_true, ↓reduceIte] at h
    contradiction

theorem mint_eq_ok (h : l.mint coin = .ok l') :
    l' = l.setBook coin.denom ((l.book coin.denom).mint coin.amount) := by
  by_cases hswitch : l.switches.mint = true
  · simp only [mint, hswitch, ↓reduceIte] at h
    obtain ⟨_, _, hrest⟩ := Except.bind_eq_ok_iff.1 h
    exact (Except.ok.inj hrest).symm
  · simp only [mint, hswitch, Bool.false_eq_true, ↓reduceIte] at h
    contradiction

/-- A collection changes one book, by what the account had in it. -/
theorem setBook_of_collects {origin : Origin} (h : Collects account coin l origin l') :
    coin.amount ≤ l.balance account coin.denom ∧
      l' = l.setBook coin.denom ((l.book coin.denom).collect origin account coin.amount) := by
  cases h with
  | native hlock =>
      obtain ⟨b, hb, rfl⟩ := lock_eq_ok (run_attempt_eq_ok hlock)
      obtain ⟨hle, rfl⟩ := Book.lock_eq_ok_iff.1 hb
      exact ⟨hle, rfl⟩
  | bridged hlock hburn =>
      obtain ⟨b, hb, rfl⟩ := lock_eq_ok (run_attempt_eq_ok hlock)
      obtain ⟨hle, rfl⟩ := Book.lock_eq_ok_iff.1 hb
      obtain ⟨b', hb', rfl⟩ := burn_eq_ok (run_attempt_eq_ok hburn)
      rw [book_setBook_self] at hb'
      obtain ⟨_, rfl⟩ := Book.burn_eq_ok_iff.1 hb'
      constructor
      · exact hle
      · rw [setBook_setBook, Nat.add_sub_cancel]
        rfl

/-- A refund changes one book, and takes native coins only where custody has them. -/
theorem setBook_of_refunds {origin : Origin} (h : Refunds account coin l origin l') :
    (origin = .native → coin.amount ≤ l.custody coin.denom) ∧
      l' = l.setBook coin.denom ((l.book coin.denom).refund origin account coin.amount) := by
  cases h with
  | native hunlock =>
      obtain ⟨b, hb, rfl⟩ := unlock_eq_ok (run_attempt_eq_ok hunlock)
      obtain ⟨hle, rfl⟩ := Book.unlock_eq_ok_iff.1 hb
      exact ⟨fun _ => hle, rfl⟩
  | bridged hmint hunlock =>
      obtain rfl := mint_eq_ok (run_attempt_eq_ok hmint)
      obtain ⟨b, hb, rfl⟩ := unlock_eq_ok (run_attempt_eq_ok hunlock)
      rw [book_setBook_self] at hb
      obtain ⟨_, rfl⟩ := Book.unlock_eq_ok_iff.1 hb
      constructor
      · intro hnative
        contradiction
      · rw [setBook_setBook, Book.mint, Nat.add_sub_cancel]
        rfl

theorem checkCoin_of_valid (hvalid : coin.denom.Valid) : checkCoin coin = .ok () := by
  rw [checkCoin, Denom.check_eq_ok_iff.2 hvalid]
  rfl

theorem unlock_of_covered (hvalid : coin.denom.Valid)
    (hcovered : coin.amount ≤ l.custody coin.denom) :
    (Custody.unlock account coin).run l = (.ok (), l.setBook coin.denom
      ((l.book coin.denom).refund .native account coin.amount)) := by
  have hbook : (l.book coin.denom).unlock account coin.amount =
      .ok ((l.book coin.denom).refund .native account coin.amount) :=
    Book.unlock_eq_ok_iff.2 ⟨hcovered, rfl⟩
  have hunlock : l.unlock account coin = .ok (l.setBook coin.denom
      ((l.book coin.denom).refund .native account coin.amount)) := by
    rw [unlock, checkCoin_of_valid hvalid, hbook]
    rfl
  exact run_attempt_of_eq_ok hunlock

theorem mint_of_enabled (hvalid : coin.denom.Valid) (hswitch : l.switches.mint = true) :
    (Custody.mint coin).run l =
      (.ok (), l.setBook coin.denom ((l.book coin.denom).mint coin.amount)) := by
  have hmint : l.mint coin =
      .ok (l.setBook coin.denom ((l.book coin.denom).mint coin.amount)) := by
    rw [mint, hswitch, checkCoin_of_valid hvalid]
    rfl
  exact run_attempt_of_eq_ok hmint

/-- A refund of a valid coin succeeds where minting is enabled and custody covers native coins. -/
theorem refunds_of_covered {origin : Origin} (hvalid : coin.denom.Valid)
    (hmint : origin = .bridged → l.switches.mint = true)
    (hcovered : origin = .native → coin.amount ≤ l.custody coin.denom) :
    ∃ l', Refunds account coin l origin l' := by
  cases origin with
  | native => exact ⟨_, .native (unlock_of_covered hvalid (hcovered rfl))⟩
  | bridged =>
      refine ⟨_, .bridged (mint_of_enabled hvalid (hmint rfl)) (unlock_of_covered hvalid ?_)⟩
      rw [custody, book_setBook_self]
      exact Nat.le_add_left _ _

end Ledger

end WithdrawalPool
