/-
When a submission succeeds, and what it does then.  It looks at its arguments, at the registry, at
the counter and at one balance, and fails on nothing else: a transfer with the next id always finds
its place in the pool free.
-/
import WithdrawalPool.Proofs.Conservation
import WithdrawalPool.Proofs.Ownership
import WithdrawalPool.Proofs.WriteOnce

namespace WithdrawalPool

theorem IdCounter.exists_successor_iff {c : IdCounter} :
    (∃ next, c.successor = .ok next) ↔ c.peek.toNat < UInt64.size - 1 := by
  rw [successor]
  split
  next hroom => exact iff_of_true ⟨_, rfl⟩ (Nat.lt_sub_of_add_lt hroom)
  next hlast =>
    refine iff_of_false ?_ fun hlt => hlast (Nat.add_lt_of_lt_sub hlt)
    rintro ⟨next, hnext⟩
    contradiction

/-- What the arguments of a submission have to be, whatever is pending, held or registered. -/
structure Withdrawal.Proper (context : ExecutionContext) (policy : DestinationPolicy)
    (w : Withdrawal) : Prop where
  height : context.blockHeight ≠ 0
  sender : w.sender.text ≠ ""
  destination : Address.WellFormed w.destination
  notZero : policy.rejectZero = true → w.destination ≠ Address.zero.text
  denoms : w.amount.denom = w.fee.denom
  valid : w.amount.denom.Valid
  positive : 0 < w.amount.amount

/-- The checks accept the arguments that they should, and no others. -/
theorem Withdrawal.exists_check_iff {context : ExecutionContext} {config : Config}
    {policy : DestinationPolicy} {w : Withdrawal} :
    (∃ destination, w.check ⟨context, config, policy.check⟩ = .ok (destination, w.total)) ↔
      w.Proper context policy := by
  constructor
  · rintro ⟨destination, hcheck⟩
    obtain ⟨hheight, hsender, hpolicy, htext, hvalid, _, hpositive, hdenoms, _⟩ :=
      check_eq_ok_iff.1 hcheck
    obtain ⟨read, hread, hallowed⟩ := DestinationPolicy.check_eq_ok_iff.1 hpolicy
    have hsame : read.text = w.destination := Address.ofText_eq_ok_iff.1 hread
    refine ⟨beq_eq_false_iff_ne.1 hheight, beq_eq_false_iff_ne.1 hsender,
      htext ▸ destination.wellFormed, fun hreject hzero => ?_, hdenoms, hvalid, hpositive⟩
    exact hallowed ⟨hreject, Address.ext (hsame.trans hzero)⟩
  · intro h
    have hpolicy : policy.check w.destination = .ok () := by
      refine DestinationPolicy.check_eq_ok_iff.2 ⟨⟨w.destination, h.destination⟩,
        Address.ofText_eq_ok_iff.2 rfl, ?_⟩
      rintro ⟨hreject, hzero⟩
      exact h.notZero hreject (congrArg Address.text hzero)
    exact ⟨⟨w.destination, h.destination⟩, check_eq_ok_iff.2 ⟨beq_eq_false_iff_ne.2 h.height,
      beq_eq_false_iff_ne.2 h.sender, hpolicy, rfl, h.valid, h.denoms ▸ h.valid, h.positive,
      h.denoms, rfl⟩⟩

namespace Registry

/-- The denomination is a registered native one, or the voucher of an address. -/
def Knows (r : Registry) (d : Denom) : Prop :=
  (d ∈ r.nativeDenoms ∧ ¬ d.IsVoucher) ∨ ∃ contract, d = Denom.voucher contract

theorem exists_contractOf_iff {r : Registry} {d : Denom} :
    (∃ origin contract, r.contractOf d = .ok (origin, contract)) ↔ r.Knows d := by
  constructor
  · rintro ⟨origin, contract, hresolved⟩
    rcases contractOf_eq_ok hresolved with ⟨_, hnative, hfind⟩ | ⟨_, hvoucher⟩
    · exact Or.inl ⟨mem_nativeDenoms_iff.2 ⟨contract, hfind⟩, hnative⟩
    · exact Or.inr ⟨contract, hvoucher⟩
  · rintro (⟨hlisted, hnative⟩ | ⟨contract, rfl⟩)
    · obtain ⟨contract, hfind⟩ := mem_nativeDenoms_iff.1 hlisted
      exact ⟨.native, contract, contractOf_of_some hnative hfind⟩
    · exact ⟨.bridged, contract, r.contractOf_voucher contract⟩

/-- No voucher can be registered, so every registered denomination is a native one. -/
theorem Linked.knows_iff {r : Registry} (h : r.Linked) {d : Denom} :
    r.Knows d ↔ d ∈ r.nativeDenoms ∨ ∃ contract, d = Denom.voucher contract := by
  have hnative : d ∈ r.nativeDenoms → ¬ d.IsVoucher := by
    intro hlisted
    obtain ⟨contract, hfind⟩ := mem_nativeDenoms_iff.1 hlisted
    exact h.native d contract (h.paired d contract hfind)
  rw [Knows, and_iff_left_of_imp hnative]

end Registry

namespace Ledger

variable {l l' : Ledger} {account : AccountId} {coin : Coin} {origin : Origin}

/-- Coins that the account has can be locked, and custody has them then. -/
theorem exists_lock_of_covered (hvalid : coin.denom.Valid)
    (hcovered : coin.amount ≤ l.balance account coin.denom) :
    ∃ locked, (Custody.lock account coin).run l = (.ok (), locked) ∧
      locked.switches = l.switches ∧ coin.amount ≤ locked.custody coin.denom := by
  obtain ⟨b, hbook, hcustody⟩ : ∃ b, (l.book coin.denom).lock account coin.amount = .ok b ∧
      coin.amount ≤ b.custody :=
    ⟨_, Book.lock_eq_ok_iff.2 ⟨hcovered, rfl⟩, Nat.le_add_left _ _⟩
  have hlock : l.lock account coin = .ok (l.setBook coin.denom b) := by
    rw [lock, checkCoin_of_valid hvalid, hbook]
    rfl
  refine ⟨l.setBook coin.denom b, run_attempt_of_eq_ok hlock, rfl, ?_⟩
  rw [custody, book_setBook_self]
  exact hcustody

theorem exists_burn_of_covered (hvalid : coin.denom.Valid) (hswitch : l.switches.burn = true)
    (hcovered : coin.amount ≤ l.custody coin.denom) :
    ∃ l', (Custody.burn coin).run l = (.ok (), l') := by
  obtain ⟨b, hbook⟩ : ∃ b, (l.book coin.denom).burn coin.amount = .ok b :=
    ⟨_, Book.burn_eq_ok_iff.2 ⟨hcovered, rfl⟩⟩
  have hburn : l.burn coin = .ok (l.setBook coin.denom b) := by
    rw [burn, hswitch, checkCoin_of_valid hvalid, hbook]
    rfl
  exact ⟨l.setBook coin.denom b, run_attempt_of_eq_ok hburn⟩

theorem switch_of_burn_eq_ok (h : l.burn coin = .ok l') : l.switches.burn = true := by
  by_contra hswitch
  simp only [burn, hswitch, ↓reduceIte] at h
  contradiction

/-- A valid coin can be collected exactly if the account has it, and if vouchers can be burned
where it is one. -/
theorem exists_collects_iff (hvalid : coin.denom.Valid) :
    (∃ l', Collects account coin l origin l') ↔
      coin.amount ≤ l.balance account coin.denom ∧
        (origin = .bridged → l.switches.burn = true) := by
  constructor
  · rintro ⟨l', hcollects⟩
    refine ⟨(setBook_of_collects hcollects).1, ?_⟩
    rintro rfl
    cases hcollects with
    | @bridged locked _ hlock hburn =>
        obtain ⟨b, _, rfl⟩ := lock_eq_ok (run_attempt_eq_ok hlock)
        have hswitch : (l.setBook coin.denom b).switches.burn = true :=
          switch_of_burn_eq_ok (run_attempt_eq_ok hburn)
        exact hswitch
  · rintro ⟨hcovered, hburn⟩
    obtain ⟨locked, hlock, hswitches, hcustody⟩ := exists_lock_of_covered hvalid hcovered
    cases origin with
    | native => exact ⟨locked, .native hlock⟩
    | bridged =>
        have hswitch : locked.switches.burn = true := hswitches ▸ hburn rfl
        obtain ⟨l', hburned⟩ := exists_burn_of_covered hvalid hswitch hcustody
        exact ⟨l', .bridged hlock hburned⟩

end Ledger

/-- The pools differ in the one transfer, which the second pool has at its place. -/
def Pool.Gains (p : Pool) (t : Transfer) (p' : Pool) : Prop := p'.Loses t p

namespace Bridge

variable {s s' : Bridge} {context : ExecutionContext} {config : Config}
  {policy : DestinationPolicy} {w : Withdrawal} {id first : UInt64}

/-- All that a submission asks for. -/
structure Accepts (s : Bridge) (context : ExecutionContext) (policy : DestinationPolicy)
    (w : Withdrawal) : Prop where
  proper : w.Proper context policy
  known : s.registry.Knows w.amount.denom
  available : s.ids.peek.toNat < UInt64.size - 1
  covered : w.total.amount ≤ s.ledger.balance w.sender w.amount.denom
  burnable : w.amount.denom.IsVoucher → s.ledger.switches.burn = true

theorem accepts_of_submit
    (h : (submit ⟨context, config, policy.check⟩ w).runFrom s = (.ok id, s')) :
    s.Accepts context policy w := by
  cases submitEffect_of_runFrom h with
  | recorded hadmits hcollects _ =>
      have hproper := Withdrawal.exists_check_iff.1 ⟨_, hadmits.accepted⟩
      have hresolved := congrArg Prod.fst hadmits.resolved
      have hvalid : w.total.denom.Valid := hproper.valid
      obtain ⟨hcovered, hburn⟩ := (Ledger.exists_collects_iff hvalid).1 ⟨_, hcollects⟩
      exact ⟨hproper, Registry.exists_contractOf_iff.1 ⟨_, _, hresolved⟩,
        IdCounter.exists_successor_iff.1 ⟨_, hadmits.available⟩, hcovered,
        fun hvoucher => hburn ((Registry.origin_of_contractOf hresolved).2 hvoucher)⟩

theorem Accepts.exists_submit (h : s.Accepts context policy w) (hsound : s.store.Sound first)
    (config : Config) :
    ∃ id s', (submit ⟨context, config, policy.check⟩ w).runFrom s = (.ok id, s') := by
  obtain ⟨destination, haccepted⟩ :
      ∃ destination, w.check ⟨context, config, policy.check⟩ = .ok (destination, w.total) :=
    Withdrawal.exists_check_iff.2 h.proper
  obtain ⟨origin, contract, hresolved⟩ := Registry.exists_contractOf_iff.2 h.known
  obtain ⟨next, havailable⟩ := IdCounter.exists_successor_iff.2 h.available
  have hburn : origin = .bridged → s.ledger.switches.burn = true := fun horigin =>
    h.burnable ((Registry.origin_of_contractOf hresolved).1 horigin)
  have hvalid : w.total.denom.Valid := h.proper.valid
  obtain ⟨ledger, hcollects⟩ : ∃ ledger, Collects w.sender w.total s.ledger origin ledger :=
    (Ledger.exists_collects_iff hvalid).2 ⟨h.covered, hburn⟩
  have hadmits : Admits ⟨context, config, policy.check⟩ w s destination origin contract
      s.registry next := ⟨haccepted, Prod.ext hresolved rfl, havailable⟩
  have hinsert : s.pool.insert (w.toTransfer s.ids.peek destination contract) =
      .ok (s.pool.place contract (w.toTransfer s.ids.peek destination contract)) := by
    -- No pending transfer has the id that the counter stands at.
    refine Pool.insert_eq_ok_iff.2 ⟨?_, rfl⟩
    exact hsound.find?_of_id (t := w.toTransfer s.ids.peek destination contract) rfl
  rw [runFrom_submit_of_collects hadmits hcollects, hinsert]
  exact ⟨_, _, rfl⟩

section

variable {destination contract : Address} {origin : Origin} {next : UInt64}

theorem Submits.gains (h : s.Submits w id s' destination origin contract next)
    (hsound : s.store.Sound first) :
    s.pool.Gains (w.toTransfer id destination contract) s'.pool :=
  Pool.loses_of_remove (h.remove_recorded hsound)

/-- Native coins are kept in custody, and vouchers go out of the supply. -/
theorem Submits.custody_supply (h : s.Submits w id s' destination origin contract next)
    (hbalanced : s.ledger.Balanced) :
    (¬ w.amount.denom.IsVoucher ∧ s.registry.contracts.find? w.amount.denom = some contract ∧
        s'.ledger.custody w.amount.denom =
          s.ledger.custody w.amount.denom + w.total.amount ∧
        s'.ledger.supply w.amount.denom = s.ledger.supply w.amount.denom) ∨
      (w.amount.denom = Denom.voucher contract ∧
        s'.ledger.supply w.amount.denom + w.total.amount = s.ledger.supply w.amount.denom ∧
        s'.ledger.custody w.amount.denom = s.ledger.custody w.amount.denom) := by
  rw [Ledger.custody, Ledger.supply, h.ledger, Ledger.book_setBook_self]
  rcases Registry.contractOf_eq_ok h.resolved with ⟨rfl, hnative, hfind⟩ | ⟨rfl, hvoucher⟩
  · exact Or.inl ⟨hnative, hfind, rfl, rfl⟩
  · exact Or.inr ⟨hvoucher, (hbalanced w.amount.denom).supply_collect h.covered, rfl⟩

end

/-- However a store and a bank came about, and whatever is registered, a submission succeeds
exactly if its arguments are proper, the denomination is known, the counter is below the largest id,
the sender has the amount and the fee, and vouchers can be burned where it takes them.  Known are,
after any registrations, the registered denominations and the vouchers.  A submission that succeeds
returns the id that the counter stood at, and the pool gains the transfer that records it, on the
contract of the denomination.  The sender pays the amount and the fee, and no other balance changes.
Native coins are in custody then, with the supply as it was.  Vouchers are out of the supply, with
custody as it was. -/
theorem submit_succeeds_iff {ids : IdCounter} (hstore : Store.Leads ⟨∅, ids⟩ s.store)
    (hledger : Relation.ReflTransGen Ledger.Operation ∅ s.ledger) (context : ExecutionContext)
    (config : Config) (policy : DestinationPolicy) (w : Withdrawal) :
    ((∃ id s', (submit ⟨context, config, policy.check⟩ w).runFrom s = (.ok id, s')) ↔
        s.Accepts context policy w) ∧
      (∀ pairs, (∅ : Registry).registerAll pairs = s.registry → ∀ d,
        s.registry.Knows d ↔
          d ∈ s.registry.nativeDenoms ∨ ∃ contract, d = Denom.voucher contract) ∧
      ∀ id s', (submit ⟨context, config, policy.check⟩ w).runFrom s = (.ok id, s') →
        id = s.ids.peek ∧
        s'.ledger.balance w.sender w.amount.denom + w.total.amount =
          s.ledger.balance w.sender w.amount.denom ∧
        s.ledger.KeepsOthers w.sender w.amount.denom s'.ledger ∧
        (∀ d, d ≠ w.amount.denom → s'.ledger.book d = s.ledger.book d) ∧
        ∃ destination contract, destination.text = w.destination ∧
          s.pool.Gains ⟨id, w.sender, destination, ⟨contract, w.amount.amount⟩,
            ⟨contract, w.fee.amount⟩⟩ s'.pool ∧
          ((¬ w.amount.denom.IsVoucher ∧
              s.registry.contracts.find? w.amount.denom = some contract ∧
              s'.ledger.custody w.amount.denom =
                s.ledger.custody w.amount.denom + w.total.amount ∧
              s'.ledger.supply w.amount.denom = s.ledger.supply w.amount.denom) ∨
            (w.amount.denom = Denom.voucher contract ∧
              s'.ledger.supply w.amount.denom + w.total.amount =
                s.ledger.supply w.amount.denom ∧
              s'.ledger.custody w.amount.denom = s.ledger.custody w.amount.denom)) := by
  have hsound : s.store.Sound ids.peek := (Store.sound_empty ids).leads hstore
  have hbalanced : s.ledger.Balanced := Ledger.balanced_empty.operations hledger
  refine ⟨⟨?_, fun haccepts => haccepts.exists_submit hsound config⟩, fun pairs hregistry d => ?_,
    fun id s' hsubmit => ?_⟩
  · rintro ⟨id, s', hsubmit⟩
    exact accepts_of_submit hsubmit
  · have hlinked : s.registry.Linked := hregistry ▸ Registry.linked_empty.registerAll pairs
    exact hlinked.knows_iff
  · obtain ⟨destination, origin, contract, next, haccepted, hsubmits⟩ :=
      exists_accepted_submits hsubmit
    have htext := (Withdrawal.check_eq_ok_iff.1 haccepted).2.2.2.1
    refine ⟨hsubmits.fresh, ?_, ?_, fun d hd => ?_, destination, contract, htext,
      hsubmits.gains hsound, hsubmits.custody_supply hbalanced⟩
    · rw [Ledger.balance, hsubmits.ledger, Ledger.book_setBook_self]
      exact Book.balance_collect hsubmits.covered origin
    · rw [hsubmits.ledger]
      exact Ledger.keepsOthers_setBook fun other hne => Book.balance_collect_of_ne _ origin hne _
    · rw [hsubmits.ledger, Ledger.book_setBook_of_ne _ hd]

open Sample in
/-- The sample withdrawal is accepted, and takes vouchers from its sender. -/
theorem submit_succeeds_iff_of_sample :
    Accepts funded ⟨1⟩ ⟨true⟩ withdrawal ∧
      ∃ s', (submit ⟨⟨1⟩, {}, DestinationPolicy.check ⟨true⟩⟩ withdrawal).runFrom funded =
          (.ok 1, s') ∧
        s'.ledger.balance alice (Denom.voucher contract) + 107 = 1000 := by
  have hstore : Store.Leads ⟨∅, {}⟩ funded.store := .refl
  have hfund : Ledger.Operation ∅ funded.ledger := .fund alice ⟨Denom.voucher contract, 1000⟩
  obtain ⟨hiff, _, heffect⟩ := submit_succeeds_iff hstore (.single hfund) ⟨1⟩ {} ⟨true⟩ withdrawal
  have haccepts : Accepts funded ⟨1⟩ ⟨true⟩ withdrawal := {
    proper := {
      height := by decide
      sender := by decide
      destination := contract.wellFormed
      notZero := fun _ => by decide
      denoms := rfl
      valid := Denom.valid_voucher contract
      positive := by decide }
    known := Or.inr ⟨contract, rfl⟩
    available := by decide
    covered := by decide +kernel
    burnable := fun _ => rfl }
  obtain ⟨id, s', hsubmit⟩ := hiff.2 haccepts
  obtain ⟨rfl, hpaid, _⟩ := heffect id s' hsubmit
  exact ⟨haccepts, s', hsubmit, hpaid⟩

end Bridge

end WithdrawalPool
