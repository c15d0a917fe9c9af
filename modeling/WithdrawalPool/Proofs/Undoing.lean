/-
A withdrawal that is cancelled at once.  The refund undoes the collection in the book, and taking
the transfer out undoes its filing, so only the counter and the log tell that anything happened.
-/
import WithdrawalPool.Proofs.Commuting
import WithdrawalPool.Proofs.Issuance

namespace WithdrawalPool

universe u v

namespace SortedMap

variable {κ : Type u} {α : Type v} [Ord κ] [Std.LawfulEqOrd κ] [Std.TransOrd κ]

theorem insert_of_find?_eq_some {m : SortedMap κ α} {key : κ} {a : α}
    (h : m.find? key = some a) : m.insert key a = m := by
  apply ext_find?
  intro other
  by_cases hother : other = key
  · rw [hother, find?_insert_self, h]
  · exact find?_insert_of_ne m hother a

/-- Two changes of a value that is there undo each other in the map where they do on the value. -/
theorem adjust_adjust_eq_self {m : SortedMap κ α} {start a : α} {key : κ} {f g : α → α}
    (h : m.find? key = some a) (hundo : g (f a) = a) :
    (m.adjust start key f).adjust start key g = m := by
  rw [adjust, adjust, find?_insert_self, insert_insert, h, Option.getD_some, Option.getD_some,
    hundo]
  exact insert_of_find?_eq_some h

end SortedMap

namespace Tally

variable {κ : Type u} [Ord κ]

/-- An amount that is not zero has an entry. -/
theorem find?_of_pos {t : Tally κ} {key : κ} (h : 0 < t.amount key) :
    t.find? key = some (t.amount key) := by
  cases hfind : t.find? key with
  | none =>
      rw [amount, hfind] at h
      contradiction
  | some n => rw [amount, hfind, Option.getD_some]

end Tally

namespace Book

variable {b : Book} {account : AccountId} {n : Nat}

/-- A refund of what was just collected leaves the book as it was before. -/
theorem Balanced.refund_collect (h : b.Balanced) (origin : Origin) (hpositive : 0 < n)
    (hcovered : n ≤ b.balance account) :
    (b.collect origin account n).refund origin account n = b := by
  apply Book.ext
  · have hbalance : b.balances.find? account = some (b.balance account) :=
      Tally.find?_of_pos (Nat.lt_of_lt_of_le hpositive hcovered)
    rw [balances_refund, balances_collect]
    exact SortedMap.adjust_adjust_eq_self hbalance (Nat.sub_add_cancel hcovered)
  · cases origin with
    | native => exact Nat.add_sub_cancel _ _
    | bridged => rfl
  · cases origin with
    | native => rfl
    | bridged => exact h.supply_collect hcovered

end Book

namespace Ledger

variable {l l' : Ledger} {account : AccountId} {coin : Coin} {origin : Origin}

/-- A denomination that somebody holds has a book. -/
theorem find?_of_balance_pos {d : Denom} (h : 0 < l.balance account d) :
    l.books.find? d = some (l.book d) := by
  cases hfind : l.books.find? d with
  | none =>
      rw [balance, book, hfind] at h
      contradiction
  | some b => rw [book, hfind, Option.getD_some]

theorem setBook_book {d : Denom} (h : l.books.find? d = some (l.book d)) :
    l.setBook d (l.book d) = l := by
  rw [setBook, SortedMap.insert_of_find?_eq_some h]

/-- What was just collected can be refunded, and the bank is then as it was before. -/
theorem Balanced.refunds_collect (h : l.Balanced) (hpositive : 0 < coin.amount)
    (hcovered : coin.amount ≤ l.balance account coin.denom) (hvalid : coin.denom.Valid)
    (hmint : origin = .bridged → l.switches.mint = true) :
    Refunds account coin (l.setBook coin.denom
      ((l.book coin.denom).collect origin account coin.amount)) origin l := by
  have hcustody : origin = .native → coin.amount ≤ (l.setBook coin.denom
      ((l.book coin.denom).collect origin account coin.amount)).custody coin.denom := by
    rintro rfl
    rw [custody, book_setBook_self]
    exact Nat.le_add_left _ _
  obtain ⟨last, hrefunds⟩ : ∃ last, Refunds account coin (l.setBook coin.denom
      ((l.book coin.denom).collect origin account coin.amount)) origin last :=
    refunds_of_covered hvalid hmint hcustody
  have hbook := find?_of_balance_pos (Nat.lt_of_lt_of_le hpositive hcovered)
  have hlast : last = l := by
    rw [(setBook_of_refunds hrefunds).2, setBook_setBook, book_setBook_self,
      (h coin.denom).refund_collect origin hpositive hcovered, setBook_book hbook]
  rwa [hlast] at hrefunds

end Ledger

theorem events_of_submit_eq_ok {L R : Type} [Custody L] [Resolver R] {env : Env}
    {w : Withdrawal} {id : UInt64} {s s' : State L R}
    (h : (submit env w).runFrom s = (.ok id, s')) :
    s'.events = s.events ++
      [.received ⟨env.config.bridgeContract, env.config.bridgeChainId, id, id⟩] := by
  cases submitEffect_of_runFrom h with
  | recorded => rfl

namespace Bridge

variable {s s' : Bridge}

/-- What can happen to a bridge: a request is served, or its bank is used on its own. -/
inductive Moves (s : Bridge) : Bridge → Prop
  | serve {deed : Option Deed} {s' : Bridge} (hserves : Serves s deed s') : Moves s s'
  | bank {l : Ledger} (hoperation : s.ledger.Operation l) : Moves s { s with ledger := l }

/-- What holds of a bridge from its start on: its store is sound, and every coin of its bank is
accounted for. -/
structure Sound (s : Bridge) : Prop where
  store : s.store.Sound 1
  ledger : s.ledger.Balanced

theorem sound_empty : Sound empty where
  store := Store.sound_empty {}
  ledger := Ledger.balanced_empty

theorem Serves.balanced {deed : Option Deed} (hserves : Serves s deed s')
    (h : s.ledger.Balanced) : s'.ledger.Balanced := by
  cases hserves with
  | fund account coin => exact h.fund account coin
  | switch => exact h
  | register => exact h
  | notRegistered => exact h
  | submit hsubmit => exact Ledger.keeps_balanced.submit h hsubmit
  | notSubmitted hsubmit => exact Ledger.keeps_balanced.submit h hsubmit
  | cancel hcancel => exact Ledger.keeps_balanced.cancel h hcancel
  | notCancelled hcancel => exact Ledger.keeps_balanced.cancel h hcancel
  | remove => exact h
  | notRemoved => exact h

theorem Sound.moves (h : s.Sound) (hmoves : Moves s s') : s'.Sound := by
  cases hmoves with
  | serve hserves => exact ⟨h.store.leads hserves.leads, hserves.balanced h.ledger⟩
  | bank hoperation => exact ⟨h.store, h.ledger.operation hoperation⟩

theorem Sound.of_reachable (hreach : Relation.ReflTransGen Moves empty s) : s.Sound := by
  induction hreach with
  | refl => exact sound_empty
  | tail _ hmoves ih => exact ih.moves hmoves

section

variable {w : Withdrawal} {id : UInt64} {destination contract : Address} {origin : Origin}
  {next : UInt64}

/-- The coins that a submission collected can be refunded. -/
theorem Submits.refunds_collected (h : s.Submits w id s' destination origin contract next)
    (hsound : s.Sound) (hvalid : w.amount.denom.Valid)
    (hmint : origin = .bridged → s.ledger.switches.mint = true) :
    Refunds w.sender w.total s'.ledger origin s.ledger := by
  have hpositive : 0 < w.total.amount := Nat.add_pos_left h.positive _
  rw [h.ledger]
  exact hsound.ledger.refunds_collect hpositive h.covered hvalid hmint

end

/-- After whatever happened to a bridge, a withdrawal that was just submitted can be cancelled by
its sender, where its contract leads back to its denomination and vouchers can be minted.  The
pool, the bank and the registry are then what they were before the submission.  The counter has
moved on by one, and the log tells of the withdrawal and of its cancellation. -/
theorem submission_is_undone {env env' : Env} {w : Withdrawal} {id : UInt64} {origin : Origin}
    {contract : Address} (hreach : Relation.ReflTransGen Moves empty s)
    (hsubmit : (submit env w).runFrom s = (.ok id, s'))
    (hcontract : s.registry.contractOf w.amount.denom = .ok (origin, contract))
    (hdenom : s.registry.denomOf contract = (origin, w.amount.denom))
    (hmint : origin = .bridged → s.ledger.switches.mint = true)
    (hcontext : env'.context.isZero = false) :
    (cancel env' id w.sender).runFrom s' =
        (.ok (),
          { s with
            ids := s'.ids
            events := s.events ++
              [.received ⟨env.config.bridgeContract, env.config.bridgeChainId, id, id⟩,
                .cancelled ⟨env'.config.bridgeContract, env'.config.bridgeChainId, id⟩] }) ∧
      id = s.ids.peek ∧ s'.ids.peek.toNat = s.ids.peek.toNat + 1 := by
  have hsound := Sound.of_reachable hreach
  have hsoundAfter : s'.store.Sound 1 := hsound.store.leads (Store.leads_of_submit hsubmit)
  refine ⟨?_, ids_of_submit_eq_ok hsubmit⟩
  obtain ⟨destination, _, _, next, haccepted, hsubmits⟩ := exists_accepted_submits hsubmit
  obtain ⟨rfl, rfl⟩ := Prod.mk.inj (Except.ok.inj (hcontract.symm.trans hsubmits.resolved))
  obtain ⟨_, _, _, _, hvalid, _⟩ := Withdrawal.check_eq_ok_iff.1 haccepted
  have hpending := (hsubmits.mem_iff hsound.store).2 (Or.inl rfl)
  rw [← hsubmits.registry] at hdenom
  have hclaims : Claims env' id w.sender s' _ origin w.amount.denom s'.registry :=
    claims_of_mem hsoundAfter hcontext hpending hdenom
  have hremove := hsubmits.remove_recorded hsound.store
  have hrefunds := hsubmits.refunds_collected hsound hvalid hmint
  rw [runFrom_cancel_of_refunds hclaims hremove hrefunds, events_of_submit_eq_ok hsubmit,
    hsubmits.registry, List.append_assoc]
  rfl

open Sample in
/-- The sample withdrawal takes vouchers from its sender, who has all of them again once it is
cancelled. -/
theorem submission_is_undone_of_sample :
    (submit env withdrawal).runFrom funded = (.ok 1, pending) ∧
      pending.ledger.balance alice (Denom.voucher contract) = 893 ∧
      (cancel env 1 alice).runFrom pending =
        (.ok (),
          { funded with
            ids := pending.ids
            events :=
              [.received ⟨env.config.bridgeContract, env.config.bridgeChainId, 1, 1⟩,
                .cancelled ⟨env.config.bridgeContract, env.config.bridgeChainId, 1⟩] }) := by
  have hfund : Moves empty funded := .serve (.fund alice ⟨Denom.voucher contract, 1000⟩)
  have hsubmit : (submit env withdrawal).runFrom funded = (.ok 1, pending) := by rfl
  have hcontext : env.context.isZero = false := by rfl
  obtain ⟨hundone, _⟩ := submission_is_undone (.single hfund) hsubmit (by rfl) (by rfl)
    (fun _ => rfl) hcontext
  exact ⟨hsubmit, by decide +kernel, hundone⟩

end Bridge

end WithdrawalPool
