/-
The JSON forms of the pool and its settings.  Every value is read back from the text that it is
written as, so nothing is lost on the way to a file or to another program and back.
-/
import WithdrawalPool.Codec.Config
import WithdrawalPool.Codec.Event
import WithdrawalPool.Proofs.Json.Codecs

namespace WithdrawalPool

open Json (Decoder Member Reading RoundTrips roundTrips_text roundTrips_bool roundTrips_uint64
  roundTrips_address roundTrips_amount roundTrips_accountId)

theorem roundTrips_optional_address :
    RoundTrips (Decoder.optional Decoder.address) (Json.optional Json.address) :=
  roundTrips_address.optional fun _ => nofun

theorem roundTrips_optional_uint64 :
    RoundTrips (Decoder.optional Decoder.uint64) (Json.optional Json.uint64) :=
  roundTrips_uint64.optional fun _ => nofun

theorem Coin.lawful_format : Coin.format.Lawful where
  names := by decide
  field
    | .denom => roundTrips_text
    | .amount => roundTrips_amount

theorem TokenAmount.lawful_format : TokenAmount.format.Lawful where
  names := by decide
  field
    | .contract => roundTrips_address
    | .amount => roundTrips_amount

theorem ExecutionContext.lawful_format : ExecutionContext.format.Lawful where
  names := by decide
  field
    | .blockHeight => roundTrips_uint64

theorem IdCounter.lawful_format : IdCounter.format.Lawful where
  names := by decide
  field
    | .next => roundTrips_optional_uint64

theorem Transfer.lawful_format : Transfer.format.Lawful where
  names := by decide
  field
    | .id => roundTrips_uint64
    | .sender => roundTrips_accountId
    | .destination => roundTrips_address
    | .token => TokenAmount.lawful_format.roundTrips
    | .fee => TokenAmount.lawful_format.roundTrips

theorem FeeSummary.lawful_format : FeeSummary.format.Lawful where
  names := by decide
  field
    | .token => roundTrips_address
    | .totalFees => roundTrips_amount
    | .txCount => roundTrips_uint64

theorem ReceiptNotice.lawful_format : ReceiptNotice.format.Lawful where
  names := by decide
  field
    | .contract => roundTrips_optional_address
    | .bridgeChainId => roundTrips_uint64
    | .outgoingTxId => roundTrips_uint64
    | .nonce => roundTrips_uint64

theorem CancellationNotice.lawful_format : CancellationNotice.format.Lawful where
  names := by decide
  field
    | .contract => roundTrips_optional_address
    | .bridgeChainId => roundTrips_uint64
    | .outgoingTxId => roundTrips_uint64

theorem Config.lawful_format : Config.format.Lawful where
  names := by decide
  field
    | .bridgeChainId => roundTrips_uint64
    | .bridgeContract => roundTrips_optional_address
    | .maxBatchElements => roundTrips_uint64
    | .rejectZeroDestination => roundTrips_bool

theorem Config.ofText_write (c : Config) : Config.ofText (Config.format.encode c).write = .ok c := by
  rw [Config.ofText, Config.lawful_format.roundTrips.run]
  rfl

theorem Origin.roundTrips : RoundTrips Origin.decode Origin.encode where
  plain o := .string o.name
  decode o := by cases o <;> decide

namespace Event

theorem isStorable_uint64 (n : UInt64) (depth : Nat) :
    (Json.uint64 n).reading.isStorable depth = true := by
  have hrange := Json.Numeral.inDoubleRange_ofNat n.toNat_lt
  rwa [Json.uint64, Json.nat, Json.reading, Reading.isStorable]

theorem isStorable_optional_address (a : Option Address) (depth : Nat) :
    (Json.optional Json.address a).reading.isStorable depth = true := by
  cases a <;> rfl

theorem isStorable_receiptNotice (i : ReceiptNotice.Field) (value : i.Value) (depth : Nat) :
    (ReceiptNotice.format.write i value).reading.isStorable depth = true := by
  cases i with
  | contract => exact isStorable_optional_address value depth
  | bridgeChainId => exact isStorable_uint64 value depth
  | outgoingTxId => exact isStorable_uint64 value depth
  | nonce => exact isStorable_uint64 value depth

theorem isStorable_cancellationNotice (i : CancellationNotice.Field) (value : i.Value)
    (depth : Nat) : (CancellationNotice.format.write i value).reading.isStorable depth = true := by
  cases i with
  | contract => exact isStorable_optional_address value depth
  | bridgeChainId => exact isStorable_uint64 value depth
  | outgoingTxId => exact isStorable_uint64 value depth

theorem haveStorableMembers_of_forall {depth : Nat} {members : List Member}
    (h : ∀ member ∈ members, member.1.isSome = true ∧ member.2.isStorable depth = true) :
    Reading.haveStorableMembers depth members = true := by
  induction members with
  | nil => rfl
  | cons member rest ih =>
      obtain ⟨⟨hname, hvalue⟩, hrest⟩ := List.forall_mem_cons.1 h
      rw [Reading.haveStorableMembers, hname, hvalue, ih hrest]
      rfl

section

variable {members : List Member} {kind : Kind}

theorem filter_isKindMember_cons (r : Reading)
    (hother : ∀ member ∈ members, isKindMember member = false) :
    ((some kindName, r) :: members).filter isKindMember = [(some kindName, r)] := by
  have hkind : isKindMember (some kindName, r) = true := by rfl
  rw [List.filter_cons_of_pos hkind, List.filter_eq_nil_iff.2]
  intro member hmember
  simp [hother member hmember]

theorem filter_not_isKindMember_cons (r : Reading)
    (hother : ∀ member ∈ members, isKindMember member = false) :
    ((some kindName, r) :: members).filter (!isKindMember ·) = members := by
  have hkind : isKindMember (some kindName, r) = true := by rfl
  rw [List.filter_cons_of_neg (by simp [hkind]), List.filter_eq_self.2]
  intro member hmember
  simp [hother member hmember]

theorem Kind.decode_name (kind : Kind) : Kind.decode (.string (some kind.name)) = .ok kind := by
  cases kind <;> rfl

/-- Whatever else an event holds, its type says how the rest of it is read. -/
theorem decode_object {e : Event}
    (hstorable : ∀ member ∈ members, member.1.isSome = true ∧ member.2.isStorable 126 = true)
    (hkind : members.filter isKindMember = [(some kindName, .string (some kind.name))])
    (h : ofMembers (members.filter (!isKindMember ·)) kind = .ok e) :
    decode (.object members true) = .ok e := by
  have hheld : Reading.isStorable maxDepth (.object members true) = true := by
    rw [maxDepth, Reading.isStorable, haveStorableMembers_of_forall hstorable]
    rfl
  simp only [decode, hheld, hkind, kind.decode_name]
  exact h

end

/-- A notice whose fields can be held in memory is read as the type of the event says. -/
theorem decode_members {α ι : Type} {T : ι → Type} {format : Json.RecordFormat α ι T}
    {kind : Kind} {a : α} {e : Event} (hname : ∀ i, format.name i ≠ kindName)
    (hstorable : ∀ i value, (format.write i value).reading.isStorable 126 = true)
    (h : ofMembers (Json.memberReadings (format.members a)) kind = .ok e) :
    decode (Json.object ((kindName, .string kind.name) :: format.members a)).reading = .ok e := by
  have hmember {member : Member} (hmember : member ∈ Json.memberReadings (format.members a)) :
      ∃ i, member = (some (format.name i), (format.write i (format.get a i)).reading) := by
    rw [Json.memberReadings_eq_map, Json.RecordFormat.members, List.map_map] at hmember
    obtain ⟨i, _, rfl⟩ := List.mem_map.1 hmember
    exact ⟨i, rfl⟩
  have hother : ∀ member ∈ Json.memberReadings (format.members a),
      isKindMember member = false := by
    intro member hmem
    obtain ⟨i, rfl⟩ := hmember hmem
    simpa [isKindMember] using hname i
  refine decode_object (List.forall_mem_cons.2 ⟨⟨rfl, rfl⟩, fun member hmem => ?_⟩)
    (filter_isKindMember_cons _ hother) ?_
  · obtain ⟨i, rfl⟩ := hmember hmem
    exact ⟨rfl, hstorable i _⟩
  · exact (filter_not_isKindMember_cons _ hother).symm ▸ h

theorem roundTrips : RoundTrips Event.decode Event.encode where
  plain
    | .received notice =>
      .object (List.forall_mem_cons.2
        ⟨.string _, ReceiptNotice.lawful_format.plain_members notice⟩)
    | .cancelled notice =>
      .object (List.forall_mem_cons.2
        ⟨.string _, CancellationNotice.lawful_format.plain_members notice⟩)
  decode
    | .received notice => by
      apply decode_members
      · intro i
        cases i <;> decide
      · exact fun i value => isStorable_receiptNotice i value 126
      · rw [ofMembers, ReceiptNotice.lawful_format.ofMembers_members]
        rfl
    | .cancelled notice => by
      apply decode_members
      · intro i
        cases i <;> decide
      · exact fun i value => isStorable_cancellationNotice i value 126
      · rw [ofMembers, CancellationNotice.lawful_format.ofMembers_members]
        rfl

end Event

/-- Every value is read back from the text that it is written as: addresses and account names,
also those that are missing, coins and amounts, the context and the counter, transfers and fees,
events, origins, and the configuration document. -/
theorem written_values_are_read_back :
    (∀ a : Address, Decoder.run Decoder.address (Json.address a).write = .ok a) ∧
      (∀ a : Option Address, Decoder.run (Decoder.optional Decoder.address)
        (Json.optional Json.address a).write = .ok a) ∧
      (∀ a : AccountId, Decoder.run (fun r => AccountId.mk <$> Decoder.text r)
        (Json.string a.text).write = .ok a) ∧
      (∀ c : Coin, Decoder.run Coin.format.decode (Coin.format.encode c).write = .ok c) ∧
      (∀ t : TokenAmount,
        Decoder.run TokenAmount.format.decode (TokenAmount.format.encode t).write = .ok t) ∧
      (∀ c : ExecutionContext, Decoder.run ExecutionContext.format.decode
        (ExecutionContext.format.encode c).write = .ok c) ∧
      (∀ c : IdCounter,
        Decoder.run IdCounter.format.decode (IdCounter.format.encode c).write = .ok c) ∧
      (∀ t : Transfer,
        Decoder.run Transfer.format.decode (Transfer.format.encode t).write = .ok t) ∧
      (∀ s : FeeSummary,
        Decoder.run FeeSummary.format.decode (FeeSummary.format.encode s).write = .ok s) ∧
      (∀ e : Event, Decoder.run Event.decode e.encode.write = .ok e) ∧
      (∀ o : Origin, Decoder.run Origin.decode o.encode.write = .ok o) ∧
      ∀ c : Config, Config.ofText (Config.format.encode c).write = .ok c :=
  ⟨roundTrips_address.run, roundTrips_optional_address.run, roundTrips_accountId.run,
    Coin.lawful_format.roundTrips.run, TokenAmount.lawful_format.roundTrips.run,
    ExecutionContext.lawful_format.roundTrips.run, IdCounter.lawful_format.roundTrips.run,
    Transfer.lawful_format.roundTrips.run, FeeSummary.lawful_format.roundTrips.run,
    Event.roundTrips.run, Origin.roundTrips.run, Config.ofText_write⟩

end WithdrawalPool
