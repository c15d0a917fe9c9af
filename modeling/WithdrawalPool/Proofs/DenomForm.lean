/-
The texts that are denominations.  Length is counted in bytes and the characters are judged one by
one, but only ASCII passes, so the two never disagree.  Coins that the bank or a submission is
given, and denominations to be registered, are judged by the same grammar.
-/
import WithdrawalPool.Proofs.Bank
import WithdrawalPool.Proofs.Grammar
import WithdrawalPool.Proofs.Registration
import WithdrawalPool.Proofs.Store

namespace WithdrawalPool

open Grammar (Matches)

namespace Denom

def letters : List Char := "abcdefghijklmnopqrstuvwxyzABCDEFGHIJKLMNOPQRSTUVWXYZ".toList

/-- What may follow the first letter. -/
def tailChars : List Char := letters ++ "0123456789/:._-".toList

/-- A letter, then from 2 to 127 characters that may follow one. -/
def grammar : RegularExpression Char :=
  Grammar.oneOf letters * Grammar.repeated (Grammar.oneOf tailChars) 2 127

variable {d : Denom}

theorem isTailChar_of_isAlpha {c : Char} (h : c.isAlpha = true) : isTailChar c = true := by
  have halphanum : c.isAlphanum = true := by rw [Char.isAlphanum, h, Bool.true_or]
  simp [isTailChar, halphanum]

theorem toNat_le_of_isTailChar {c : Char} (h : isTailChar c = true) : c.toNat ≤ 127 := by
  have hclasses : ((((((c.isUpper || c.isLower) || c.isDigit) || c == '/') || c == ':') || c == '.') ||
      c == '_' || c == '-') = true := h
  simp only [Bool.or_eq_true, beq_iff_eq] at hclasses
  rcases hclasses with (((((((h | h) | h) | rfl) | rfl) | rfl) | rfl) | rfl)
  · exact Nat.le_trans (of_decide_eq_true h).2 (by decide)
  · exact Nat.le_trans (of_decide_eq_true (Bool.and_eq_true_iff.1 h).2) (by decide)
  · exact Nat.le_trans (of_decide_eq_true (Bool.and_eq_true_iff.1 h).2) (by decide)
  all_goals decide

theorem isAlpha_iff {c : Char} : c.isAlpha = true ↔ c ∈ letters :=
  Text.iff_mem_of_ascii (by decide) (by decide) fun _ h =>
    toNat_le_of_isTailChar (isTailChar_of_isAlpha h)

theorem isTailChar_iff {c : Char} : isTailChar c = true ↔ c ∈ tailChars :=
  Text.iff_mem_of_ascii (by decide) (by decide) fun _ => toNat_le_of_isTailChar

/-- Where every character passes, bytes and characters are counted alike. -/
theorem utf8ByteSize_of_tailChars (h : ∀ c ∈ d.toList, isTailChar c = true) :
    d.utf8ByteSize = d.toList.length :=
  Text.utf8ByteSize_eq_length fun c hc => toNat_le_of_isTailChar (h c hc)

theorem valid_iff {first : Char} {rest : List Char} (hd : d.toList = first :: rest) :
    d.Valid ↔
      first ∈ letters ∧ (2 ≤ rest.length ∧ rest.length ≤ 127) ∧ ∀ c ∈ rest, c ∈ tailChars := by
  have hsize (hfirst : first ∈ letters) (hrest : ∀ c ∈ rest, c ∈ tailChars) :
      d.utf8ByteSize = rest.length + 1 := by
    rw [utf8ByteSize_of_tailChars, hd, List.length_cons]
    rw [hd]
    exact List.forall_mem_cons.2 ⟨isTailChar_of_isAlpha (isAlpha_iff.2 hfirst),
      fun c hc => isTailChar_iff.2 (hrest c hc)⟩
  have hall : rest.all isTailChar = true ↔ ∀ c ∈ rest, c ∈ tailChars := by
    rw [List.all_eq_true]
    exact forall₂_congr fun c _ => isTailChar_iff
  have hvalid : d.Valid ↔ first.isAlpha = true ∧ (3 ≤ d.utf8ByteSize ∧ d.utf8ByteSize ≤ 128) ∧
      rest.all isTailChar = true := by
    rw [Valid, hd]
  rw [hvalid, isAlpha_iff, hall]
  refine and_congr_right fun hfirst => and_congr_left fun hrest => ?_
  rw [hsize hfirst hrest]
  omega

theorem matches_grammar_iff : Matches grammar d ↔ d.Valid := by
  rw [Matches, grammar, Grammar.mem_mul]
  constructor
  · rintro ⟨head, hhead, rest, hrest, hd⟩
    obtain ⟨first, hfirst, rfl⟩ := Grammar.mem_oneOf.1 hhead
    exact (valid_iff hd.symm).2 ⟨hfirst, Grammar.mem_repeated_oneOf.1 hrest⟩
  · intro hvalid
    cases hd : d.toList with
    | nil =>
        rw [Valid, hd] at hvalid
        exact hvalid.elim
    | cons first rest =>
        obtain ⟨hfirst, hrest⟩ := (valid_iff hd).1 hvalid
        exact ⟨[first], Grammar.mem_oneOf.2 ⟨first, hfirst, rfl⟩, rest,
          Grammar.mem_repeated_oneOf.2 hrest, rfl⟩

theorem check_mapError_eq_error_iff {ε : Type} {mark : DenomError → ε} {e : ε} :
    d.check.mapError mark = .error e ↔ ¬ d.Valid ∧ e = mark (.invalid d) := by
  simp only [Except.mapError_eq_error_iff, check_eq_error_iff, and_assoc, exists_and_left,
    exists_eq_left]
  exact and_congr_right fun _ => eq_comm

/-- A denomination is refused for its form, or for what is found wrong with it afterwards. -/
theorem check_bind_eq_error_iff {ε α : Type} {mark : DenomError → ε} {rest : Except ε α} {e : ε} :
    (do
      d.check.mapError mark
      rest) = .error e ↔
      (¬ d.Valid ∧ e = mark (.invalid d)) ∨ (d.Valid ∧ rest = .error e) := by
  rw [Except.bind_eq_error_iff, check_mapError_eq_error_iff, exists_and_right,
    Except.exists_eq_ok_unit, Except.mapError_eq_ok_iff, check_eq_ok_iff]

end Denom

/-- Before a registry looks for the pair, it judges the denomination, and afterwards no more. -/
theorem Registry.register_eq_lookup_iff {r : Registry} {d : Denom} {contract : Address}
    {cause : DenomError} :
    r.register d contract = .error (.lookup cause) ↔
      (¬ d.Valid ∨ d.IsVoucher) ∧ cause = .invalid d := by
  unfold register
  rw [Denom.check_bind_eq_error_iff, RegistryError.lookup.injEq]
  by_cases hvoucher : d.IsVoucher
  · by_cases hvalid : d.Valid <;>
      simp [hvalid, hvoucher, throw, throwThe, MonadExceptOf.throw, bind, Except.bind, eq_comm]
  · cases r.contracts.find? d with
    | some taken => simp [hvoucher, throw, throwThe, MonadExceptOf.throw, bind, Except.bind]
    | none =>
        cases r.denoms.find? contract with
        | some taken => simp [hvoucher, throw, throwThe, MonadExceptOf.throw, bind, Except.bind]
        | none => simp [hvoucher, pure, Except.pure]

/-- Whether the calls of a kind are made at all. -/
def SupplySwitches.allows (switches : SupplySwitches) : CustodyCall → Bool
  | .lock | .unlock => true
  | .burn => switches.burn
  | .mint => switches.mint

namespace Ledger

variable {l : Ledger} {account : AccountId} {coin : Coin} {cause : DenomError}

/-- The call of a kind, with the account where there is one. -/
def call (l : Ledger) (account : AccountId) (coin : Coin) : CustodyCall → Except CustodyError Ledger
  | .lock => l.lock account coin
  | .unlock => l.unlock account coin
  | .burn => l.burn coin
  | .mint => l.mint coin

theorem checkCoin_eq_error_iff {e : CustodyError} :
    checkCoin coin = .error e ↔ ¬ coin.denom.Valid ∧ e = .invalidCoin (.invalid coin.denom) :=
  Denom.check_mapError_eq_error_iff

/-- Where nothing else finds fault with the coin, the check alone does. -/
theorem checkCoin_bind_eq_invalidCoin_iff {rest : Except CustodyError Ledger}
    (hrest : rest ≠ .error (.invalidCoin cause)) :
    (do
      checkCoin coin
      rest) = .error (.invalidCoin cause) ↔
      ¬ coin.denom.Valid ∧ cause = .invalid coin.denom := by
  rw [checkCoin, Denom.check_bind_eq_error_iff, CustodyError.invalidCoin.injEq]
  exact or_iff_left fun h => hrest h.2

theorem book_ne_invalidCoin {x : Except Nat Book} {refused : Nat → CustodyError}
    (hrefused : ∀ available, refused available ≠ .invalidCoin cause) :
    (match x with
      | .ok b => return l.setBook coin.denom b
      | .error available => throw (refused available) : Except CustodyError Ledger) ≠
      .error (.invalidCoin cause) := by
  intro h
  cases x with
  | ok b => contradiction
  | error available => exact hrefused available (Except.error.inj h)

theorem unless_disabled_eq_invalidCoin_iff {enabled : Bool} {kind : CustodyCall}
    {rest : Except CustodyError Ledger} :
    (do
      unless enabled do throw (CustodyError.disabled kind)
      rest) = .error (.invalidCoin cause) ↔
      enabled = true ∧ rest = .error (.invalidCoin cause) := by
  cases enabled with
  | false =>
      constructor
      · intro h
        have hdisabled : CustodyError.disabled kind = .invalidCoin cause := Except.error.inj h
        contradiction
      · rintro ⟨h, _⟩
        contradiction
  | true => exact (and_iff_right rfl).symm

/-- A call that is made checks the coin before it looks into a book. -/
theorem call_eq_invalidCoin_iff {kind : CustodyCall} :
    l.call account coin kind = .error (.invalidCoin cause) ↔
      l.switches.allows kind = true ∧ ¬ coin.denom.Valid ∧ cause = .invalid coin.denom := by
  cases kind with
  | lock =>
      rw [SupplySwitches.allows, and_iff_right rfl]
      exact checkCoin_bind_eq_invalidCoin_iff (book_ne_invalidCoin (by simp))
  | unlock =>
      rw [SupplySwitches.allows, and_iff_right rfl]
      exact checkCoin_bind_eq_invalidCoin_iff (book_ne_invalidCoin (by simp))
  | burn =>
      refine unless_disabled_eq_invalidCoin_iff.trans (and_congr_right fun _ => ?_)
      exact checkCoin_bind_eq_invalidCoin_iff (book_ne_invalidCoin (by simp))
  | mint =>
      refine unless_disabled_eq_invalidCoin_iff.trans (and_congr_right fun _ => ?_)
      refine checkCoin_bind_eq_invalidCoin_iff fun h => ?_
      contradiction

end Ledger

namespace Withdrawal

variable {env : Env} {w : Withdrawal}

/-- The arguments that are judged before the coins are in order. -/
structure Addressed (env : Env) (w : Withdrawal) : Prop where
  context : env.context.isZero = false
  sender : w.sender.isEmpty = false
  checked : env.checkDestination w.destination = .ok ()
  destination : Address.WellFormed w.destination

/-- Once these arguments are in order, the amount is judged first and the fee second, and what comes
after does not judge the denominations by themselves. -/
theorem check_of_addressed (h : w.Addressed env) :
    ∃ rest : Except ArgumentError (Address × Coin),
      w.check env = (do
        w.amount.denom.check.mapError .amount
        w.fee.denom.check.mapError .fee
        rest) ∧
      ∀ e, rest = .error e → e = .zeroAmount ∨ e = .denomsDiffer w.fee.denom w.amount.denom := by
  have hread : Address.ofText w.destination = .ok ⟨w.destination, h.destination⟩ :=
    Address.ofText_eq_ok_iff.2 rfl
  -- What the check comes down to here is the rest that is asked for.
  apply Exists.intro
  constructor
  · rw [check, h.context, h.sender, h.checked, hread]
    rfl
  · intro e he
    by_cases hzero : w.amount.amount = 0
    · rw [if_pos hzero] at he
      exact Or.inl (Except.error.inj he).symm
    · rw [if_neg hzero] at he
      cases hsum : w.amount.add? w.fee with
      | none =>
          rw [hsum] at he
          exact Or.inr (Except.error.inj he).symm
      | some total =>
          rw [hsum] at he
          contradiction

/-- Before that, no fault is found with the denominations. -/
theorem check_of_not_addressed (h : ¬ w.Addressed env) :
    ∃ e, w.check env = .error e ∧
      (e = .uninitializedContext ∨ e = .emptySender ∨ ∃ reason, e = .destination reason) := by
  by_cases hcontext : env.context.isZero = true
  · refine ⟨.uninitializedContext, ?_, Or.inl rfl⟩
    rw [check, hcontext]
    rfl
  by_cases hsender : w.sender.isEmpty = true
  · refine ⟨.emptySender, ?_, Or.inr (Or.inl rfl)⟩
    rw [check, Bool.eq_false_of_not_eq_true hcontext, hsender]
    rfl
  rw [Bool.not_eq_true] at hcontext hsender
  cases hchecked : env.checkDestination w.destination with
  | error reason =>
      refine ⟨.destination reason, ?_, Or.inr (Or.inr ⟨reason, rfl⟩)⟩
      rw [check, hcontext, hsender, hchecked]
      rfl
  | ok =>
      cases hread : Address.ofText w.destination with
      | error e =>
          refine ⟨.destination e.message, ?_, Or.inr (Or.inr ⟨e.message, rfl⟩)⟩
          rw [check, hcontext, hsender, hchecked, hread]
          rfl
      | ok a =>
          have hform := a.wellFormed
          rw [Address.ofText_eq_ok_iff.1 hread] at hform
          exact absurd ⟨hcontext, hsender, hchecked, hform⟩ h

/-- A fault that is found with a denomination is found with the first that is invalid. -/
theorem check_eq_error_iff {e : ArgumentError}
    (he : (∃ cause, e = .amount cause) ∨ ∃ cause, e = .fee cause) :
    w.check env = .error e ↔
      w.Addressed env ∧
        ((¬ w.amount.denom.Valid ∧ e = .amount (.invalid w.amount.denom)) ∨
          (w.amount.denom.Valid ∧ ¬ w.fee.denom.Valid ∧ e = .fee (.invalid w.fee.denom))) := by
  by_cases h : w.Addressed env
  · obtain ⟨rest, hcheck, hrest⟩ := check_of_addressed h
    have hother : rest ≠ .error e := by
      intro hfault
      rcases hrest e hfault with rfl | rfl <;> simp at he
    rw [hcheck, and_iff_right h, Denom.check_bind_eq_error_iff, Denom.check_bind_eq_error_iff]
    simp only [hother, and_false, or_false]
  · obtain ⟨other, hcheck, hother⟩ := check_of_not_addressed h
    rw [hcheck]
    refine iff_of_false (fun hfault => ?_) fun hand => h hand.1
    obtain rfl := Except.error.inj hfault
    rcases hother with rfl | rfl | ⟨reason, rfl⟩ <;> simp at he

variable {cause : DenomError}

theorem check_eq_amount_iff :
    w.check env = .error (.amount cause) ↔
      w.Addressed env ∧ ¬ w.amount.denom.Valid ∧ cause = .invalid w.amount.denom := by
  rw [check_eq_error_iff (.inl ⟨cause, rfl⟩)]
  simp only [ArgumentError.amount.injEq, reduceCtorEq, and_false, or_false]

theorem check_eq_fee_iff :
    w.check env = .error (.fee cause) ↔
      w.Addressed env ∧ w.amount.denom.Valid ∧ ¬ w.fee.denom.Valid ∧
        cause = .invalid w.fee.denom := by
  rw [check_eq_error_iff (.inr ⟨cause, rfl⟩)]
  simp only [ArgumentError.fee.injEq, reduceCtorEq, and_false, false_or]

end Withdrawal

/-- The arguments of a submission are at fault exactly if the check of them says so. -/
theorem submit_eq_invalidArgument_iff {L R : Type} [Custody L] [Resolver R] {env : Env}
    {w : Withdrawal} {s : State L R} {e : ArgumentError} :
    ((submit env w).runFrom s).1 = .error (.invalidArgument e) ↔ w.check env = .error e := by
  constructor
  · intro h
    have heffect := submit_effect env w s
    generalize (submit env w).runFrom s = outcome at h heffect
    obtain ⟨result, after⟩ := outcome
    obtain rfl : result = .error (.invalidArgument e) := h
    cases heffect with
    | refused hcheck => exact hcheck
    | exhausted _ _ hids =>
        have hexhausted := IdCounter.eq_idsExhausted hids
        contradiction
    | duplicate _ _ hinsert =>
        obtain ⟨_, hpending⟩ := Pool.insert_eq_error_iff.1 hinsert
        contradiction
  · intro hcheck
    simp only [submit, TransitionM.runFrom_bind, TransitionM.runFrom_ofExcept, hcheck,
      Except.mapError_error]

namespace Denom

/-- The denominations are the texts of their grammar, and every other text is refused as invalid.
Whoever is given a coin or a denomination judges it so: the bank in every call that it makes, a
submission once what comes before the coins is in order, first the amount and then the fee, and a
registry before it looks at what is registered. -/
theorem denominations_are_their_grammar :
    (∀ d : Denom, d.check = .ok () ↔ Matches grammar d) ∧
      (∀ (d : Denom) e, d.check = .error e ↔ ¬ Matches grammar d ∧ e = .invalid d) ∧
      (∀ d : Denom, (∀ c ∈ d.toList, isTailChar c = true) → d.utf8ByteSize = d.toList.length) ∧
      (∀ coin e, Ledger.checkCoin coin = .error e ↔
        ¬ Matches grammar coin.denom ∧ e = .invalidCoin (.invalid coin.denom)) ∧
      (∀ (l : Ledger) account coin kind cause,
        l.call account coin kind = .error (.invalidCoin cause) ↔
          l.switches.allows kind = true ∧ ¬ Matches grammar coin.denom ∧
            cause = .invalid coin.denom) ∧
      (∀ {L R : Type} [Custody L] [Resolver R] (env : Env) (w : Withdrawal) (s : State L R) cause,
        (((submit env w).runFrom s).1 = .error (.invalidArgument (.amount cause)) ↔
          w.Addressed env ∧ ¬ Matches grammar w.amount.denom ∧
            cause = .invalid w.amount.denom) ∧
        (((submit env w).runFrom s).1 = .error (.invalidArgument (.fee cause)) ↔
          w.Addressed env ∧ Matches grammar w.amount.denom ∧ ¬ Matches grammar w.fee.denom ∧
            cause = .invalid w.fee.denom)) ∧
      ∀ (r : Registry) (d : Denom) contract cause,
        r.register d contract = .error (.lookup cause) ↔
          (¬ Matches grammar d ∨ d.IsVoucher) ∧ cause = .invalid d := by
  simp only [matches_grammar_iff]
  refine ⟨fun d => check_eq_ok_iff, fun d e => check_eq_error_iff,
    fun d => utf8ByteSize_of_tailChars, fun coin e => Ledger.checkCoin_eq_error_iff,
    fun l account coin kind cause => Ledger.call_eq_invalidCoin_iff, ?_,
    fun r d contract cause => r.register_eq_lookup_iff⟩
  intro L R _ _ env w s cause
  exact ⟨submit_eq_invalidArgument_iff.trans Withdrawal.check_eq_amount_iff,
    submit_eq_invalidArgument_iff.trans Withdrawal.check_eq_fee_iff⟩

open Sample in
/-- A denomination with a path in it is counted alike in bytes and in characters.  One with an
accented letter is refused by the bank, in the fee of a submission, and for the registry. -/
theorem denominations_are_their_grammar_of_sample :
    Matches grammar "ibc/27394FB092D2ECCD" ∧
      "ibc/27394FB092D2ECCD".utf8ByteSize = "ibc/27394FB092D2ECCD".toList.length ∧
      (∅ : Ledger).call alice ⟨"até", 1⟩ .unlock = .error (.invalidCoin (.invalid "até")) ∧
      ((submit env { atoms with fee := ⟨"até", 0⟩ }).runFrom funded).1 =
        .error (.invalidArgument (.fee (.invalid "até"))) ∧
      (∅ : Registry).register "até" contract = .error (.lookup (.invalid "até")) := by
  obtain ⟨hcheck, _, hsize, _, hcall, hsubmit, hregister⟩ := denominations_are_their_grammar
  have hpath : Denom.check "ibc/27394FB092D2ECCD" = .ok () := by decide
  have htail : "ibc/27394FB092D2ECCD".toList.all isTailChar = true := by decide
  have hatoms : Denom.check "uatom" = .ok () := by decide
  have haccented : ¬ Matches grammar "até" := mt matches_grammar_iff.1 (by decide)
  have haddressed : Withdrawal.Addressed env { atoms with fee := ⟨"até", 0⟩ } :=
    ⟨by decide, by decide, rfl, contract.wellFormed⟩
  refine ⟨(hcheck _).1 hpath, hsize _ (List.all_eq_true.1 htail),
    (hcall _ _ _ _ _).2 ⟨rfl, haccented, rfl⟩,
    (hsubmit _ _ funded _).2.2 ⟨haddressed, (hcheck _).1 hatoms, haccented, rfl⟩,
    (hregister _ _ _ _).2 ⟨Or.inl haccented, rfl⟩⟩

end Denom

end WithdrawalPool
