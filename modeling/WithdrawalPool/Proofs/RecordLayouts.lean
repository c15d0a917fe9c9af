/-
The ways to lay out what the pool exchanges with others.  However a coin, a transfer, an event or
another of its records is laid out, it is read as the same record.  An object that repeats a field,
or lacks one that it has to mention, is not read at all.
-/
import WithdrawalPool.Proofs.Json.Layouts
import WithdrawalPool.Proofs.Json.Refusals
import WithdrawalPool.Proofs.RoundTrip

namespace WithdrawalPool

open Json (Accepts Decoder Document IsScalar Layout Member Reading RecordFormat Refuses
  occurrences refuses_nothing written)

/-- Every text that is a layout of a value is read as the value, and every text of a faulty value
is refused. -/
structure ReadsTexts {α : Type} (decoder : Decoder α) (layout : Layout α)
    (faulty : Reading → Prop) : Prop where
  reads : ∀ a text, layout.IsText a text → decoder.run text = .ok a
  refuses : ∀ text, faulty (Document.ofText text).root → ∃ e, decoder.run text = .error e

theorem Json.Accepts.readsTexts {α : Type} {decoder : Decoder α} {layout : Layout α}
    {faulty : Reading → Prop} (haccepts : Accepts decoder layout)
    (hrefuses : Refuses decoder faulty) : ReadsTexts decoder layout faulty where
  reads := haccepts.run
  refuses := hrefuses.run

theorem Json.RecordFormat.Lawful.readsTexts {α ι : Type} {T : ι → Type} [DecidableEq ι]
    {format : RecordFormat α ι T} (h : format.Lawful) :
    ReadsTexts format.decode format.LaidOutFlat format.FaultyFlat :=
  h.accepts_flat.readsTexts h.refuses_flat

namespace Transfer

/-- The token and the fee may be laid out in any way. -/
def fieldLayout : (i : Field) → Layout i.Value
  | .token => TokenAmount.format.LaidOutFlat
  | .fee => TokenAmount.format.LaidOutFlat
  | i => written (format.write i)

def fieldFaulty : Field → Reading → Prop
  | .token => TokenAmount.format.FaultyFlat
  | .fee => TokenAmount.format.FaultyFlat
  | _ => fun _ => False

theorem readsTexts : ReadsTexts format.decode (format.LaidOut fieldLayout)
    (format.Faulty fieldFaulty) := by
  have haccepts : ∀ i, Accepts (format.read i) (fieldLayout i)
    | .id => (lawful_format.field .id).accepts
    | .sender => (lawful_format.field .sender).accepts
    | .destination => (lawful_format.field .destination).accepts
    | .token => TokenAmount.lawful_format.accepts_flat
    | .fee => TokenAmount.lawful_format.accepts_flat
  have hrefuses : ∀ i, Refuses (format.read i) (fieldFaulty i)
    | .id => refuses_nothing _
    | .sender => refuses_nothing _
    | .destination => refuses_nothing _
    | .token => TokenAmount.lawful_format.refuses_flat
    | .fee => TokenAmount.lawful_format.refuses_flat
  exact (lawful_format.accepts haccepts).readsTexts (lawful_format.refuses hrefuses)

end Transfer

namespace Event

/-- The type stands anywhere among the members of a notice, or before its items. -/
inductive Tagged (kind : Kind) : Json → Json → Prop
  | object {members tagged : List (String × Json)}
      (hother : ∀ member ∈ members, member.1 ≠ kindName)
      (htagged : tagged.Perm ((kindName, .string kind.name) :: members)) :
      Tagged kind (.object members) (.object tagged)
  | array {items : List Json} : Tagged kind (.array items) (.array (.string kind.name :: items))

/-- An event is laid out as its notice is, and has its type with it. -/
def LaidOut : Layout Event
  | .received notice, v =>
    ∃ rest, ReceiptNotice.format.LaidOutFlat notice rest ∧ Tagged .received rest v
  | .cancelled notice, v =>
    ∃ rest, CancellationNotice.format.LaidOutFlat notice rest ∧ Tagged .cancelled rest v

def Kind.FaultyNotice : Kind → Reading → Prop
  | .received => ReceiptNotice.format.FaultyFlat
  | .cancelled => CancellationNotice.format.FaultyFlat

/-- The faults of an event: it does not give its type once, or whichever type it gives, its notice
is faulty for that. -/
inductive Faulty : Reading → Prop
  | kind {members : List Member} {closed : Bool} (h : occurrences kindName members ≠ 1) :
      Faulty (.object members closed)
  | notice {members : List Member} {closed : Bool}
      (h : ∀ kind : Kind, (some kindName, .string (some kind.name)) ∈ members →
        kind.FaultyNotice (.object members closed)) : Faulty (.object members closed)

section

variable {α ι : Type} {T : ι → Type} [DecidableEq ι] {format : RecordFormat α ι T} {kind : Kind}
  {make : α → Event} {a : α} {rest v : Json}

/-- Events of a type are read as notices in a format. -/
structure ReadAs (kind : Kind) (format : RecordFormat α ι T) (make : α → Event) : Prop where
  lawful : format.Lawful
  name_ne : ∀ i, format.name i ≠ kindName
  isStorable : ∀ i value, (format.write i value).reading.isStorable 126 = true
  ofMembers : ∀ members, Event.ofMembers members kind = make <$> format.ofMembers members true
  ofItems : ∀ items, Event.ofItems items kind = make <$> format.ofItems items true

theorem readAs_received : ReadAs .received ReceiptNotice.format .received where
  lawful := ReceiptNotice.lawful_format
  name_ne i := by cases i <;> decide
  isStorable i value := isStorable_receiptNotice i value 126
  ofMembers _ := rfl
  ofItems _ := rfl

theorem readAs_cancelled : ReadAs .cancelled CancellationNotice.format .cancelled where
  lawful := CancellationNotice.lawful_format
  name_ne i := by cases i <;> decide
  isStorable i value := isStorable_cancellationNotice i value 126
  ofMembers _ := rfl
  ofItems _ := rfl

theorem Tagged.forall_mem_parts {p : Json → Prop} (h : Tagged kind rest v)
    (hkind : p (.string kind.name)) (hrest : ∀ part ∈ rest.parts, p part) :
    ∀ part ∈ v.parts, p part := by
  cases h with
  | object _ htagged =>
      refine List.forall_mem_map.2 fun member hmember => ?_
      rcases List.mem_cons.1 (htagged.mem_iff.1 hmember) with rfl | hother
      · exact hkind
      · exact hrest _ (List.mem_map_of_mem hother)
  | array => exact List.forall_mem_cons.2 ⟨hkind, hrest⟩

theorem Tagged.plain (h : Tagged kind rest v) (hrest : ∀ part ∈ rest.parts, part.Plain) :
    v.Plain := by
  have hparts := h.forall_mem_parts (.string _) hrest
  cases h with
  | object => exact .object (List.forall_mem_map.1 hparts)
  | array => exact .array hparts

theorem isStorable_of_isScalar {value : Json} (h : value.IsScalar) (depth : Nat) :
    value.reading.isStorable depth = true := by
  cases h with
  | null => rfl
  | bool value => rfl
  | string text => rfl
  | uint64 n => exact isStorable_uint64 n depth

theorem areStorable_itemReadings {items : List Json} {depth : Nat}
    (h : ∀ item ∈ items, item.reading.isStorable depth = true) :
    Reading.areStorable depth (Json.itemReadings items) = true := by
  induction items with
  | nil => rfl
  | cons item rest ih =>
      obtain ⟨hitem, hrest⟩ := List.forall_mem_cons.1 h
      rw [Json.itemReadings, Reading.areStorable, hitem, ih hrest]
      rfl

/-- Without the type, the members that are left are those of the notice, in some order. -/
theorem filter_isKindMember_of_perm {members tagged : List (String × Json)}
    (hother : ∀ member ∈ members, member.1 ≠ kindName)
    (htagged : tagged.Perm ((kindName, .string kind.name) :: members)) :
    (Json.memberReadings tagged).filter isKindMember =
        [(some kindName, .string (some kind.name))] ∧
      ∃ untagged : List (String × Json), untagged.Perm members ∧
        (Json.memberReadings tagged).filter (!isKindMember ·) = Json.memberReadings untagged := by
  have hmembers : ∀ member ∈ Json.memberReadings members, isKindMember member = false := by
    rw [Json.memberReadings_eq_map]
    refine List.forall_mem_map.2 fun member hmember => ?_
    simpa [isKindMember] using hother member hmember
  have hperm : (Json.memberReadings tagged).Perm
      ((some kindName, .string (some kind.name)) :: Json.memberReadings members) := by
    have hmap := htagged.map fun member => (some member.1, member.2.reading)
    rw [← Json.memberReadings_eq_map, ← Json.memberReadings_eq_map] at hmap
    exact hmap
  constructor
  · have hkind := hperm.filter isKindMember
    rw [filter_isKindMember_cons _ hmembers] at hkind
    exact List.perm_singleton.1 hkind
  · let keep (member : String × Json) : Bool := !(member.1 == kindName)
    have hkeep : ((kindName, Json.string kind.name) :: members).filter keep = members := by
      rw [List.filter_cons_of_neg (by simp [keep]), List.filter_eq_self.2]
      intro member hmember
      simpa [keep] using hother member hmember
    refine ⟨tagged.filter keep, hkeep ▸ htagged.filter keep, ?_⟩
    rw [Json.memberReadings_eq_map, Json.memberReadings_eq_map, List.filter_map]
    rfl

/-- An event is read from each of its layouts. -/
theorem ReadAs.decode_tagged (h : ReadAs kind format make) (hrest : format.LaidOutFlat a rest)
    (htagged : Tagged kind rest v) : decode v.reading = .ok (make a) := by
  have hnotice {rest : Json} (hrest : format.LaidOutFlat a rest) :
      format.decode rest.reading = .ok a :=
    h.lawful.accepts_flat.decode hrest
  have hstorable : ∀ part ∈ v.parts, part.reading.isStorable 126 = true := by
    refine htagged.forall_mem_parts rfl (hrest.forall_mem_parts ?_ ?_)
    · exact fun value hvalue => isStorable_of_isScalar hvalue 126
    · rintro i b value rfl
      exact h.isStorable i b
  cases htagged with
  | @object members tagged hother hperm =>
      obtain ⟨hkind, untagged, huntagged, hleft⟩ := filter_isKindMember_of_perm hother hperm
      refine decode_object ?_ hkind ?_
      · rw [Json.memberReadings_eq_map]
        refine List.forall_mem_map.2 fun member hmember => ⟨rfl, ?_⟩
        exact hstorable _ (List.mem_map_of_mem hmember)
      · have hread : format.ofMembers (Json.memberReadings untagged) true = .ok a :=
          hnotice (hrest.perm huntagged)
        rw [hleft, h.ofMembers, hread]
        rfl
  | @array items =>
      have hread : format.ofItems (Json.itemReadings items) true = .ok a := hnotice hrest
      have hitems : Reading.areStorable 126
          (Json.itemReadings (.string kind.name :: items)) = true :=
        areStorable_itemReadings hstorable
      have hheld : Reading.isStorable maxDepth
          (.array (.string (some kind.name) :: Json.itemReadings items) true) = true := by
        rw [maxDepth, Reading.isStorable]
        exact hitems
      simp only [Json.reading, Json.itemReadings, decode, hheld, kind.decode_name]
      refine (h.ofItems _).trans ?_
      rw [hread]
      rfl

theorem ReadAs.plain_tagged (h : ReadAs kind format make) (hrest : format.LaidOutFlat a rest)
    (htagged : Tagged kind rest v) : v.Plain := by
  refine htagged.plain (hrest.forall_mem_parts (fun _ => IsScalar.plain) ?_)
  rintro i b value rfl
  exact (h.lawful.field i).plain b

/-- Members from which a notice is read have no fault, and nor have they with the type. -/
theorem ReadAs.not_faulty (h : ReadAs kind format make) {members : List Member} {e : Event}
    (hread : Event.ofMembers (members.filter (!isKindMember ·)) kind = .ok e) (closed : Bool) :
    ¬ format.FaultyFlat (.object members closed) := by
  rw [h.ofMembers] at hread
  obtain ⟨a, hnotice, _⟩ := Except.map_eq_ok_iff.1 hread
  intro hfaulty
  refine h.lawful.refuses_flat (.object _ true) a hnotice (hfaulty.filter fun i r => ?_)
  simpa [isKindMember] using h.name_ne i

end

theorem accepts : Accepts decode LaidOut where
  plain {e v} hv := by
    cases e with
    | received notice =>
        obtain ⟨rest, hrest, htagged⟩ := hv
        exact readAs_received.plain_tagged hrest htagged
    | cancelled notice =>
        obtain ⟨rest, hrest, htagged⟩ := hv
        exact readAs_cancelled.plain_tagged hrest htagged
  decode {e v} hv := by
    cases e with
    | received notice =>
        obtain ⟨rest, hrest, htagged⟩ := hv
        exact readAs_received.decode_tagged hrest htagged
    | cancelled notice =>
        obtain ⟨rest, hrest, htagged⟩ := hv
        exact readAs_cancelled.decode_tagged hrest htagged

theorem Kind.eq_of_decode {r : Reading} {kind : Kind} (h : Kind.decode r = .ok kind) :
    r = .string (some kind.name) := by
  obtain ⟨s, htext, hkind⟩ := Except.bind_eq_ok_iff.1 h
  have hr : r = .string (some s) := by
    unfold Decoder.text at htext
    split at htext
    next => rw [Except.ok.inj htext]
    next => contradiction
  rw [hr]
  split at hkind
  next hreceived => rw [hreceived, ← Except.ok.inj hkind]
  next =>
    split at hkind
    next hcancelled => rw [hcancelled, ← Except.ok.inj hkind]
    next => contradiction

/-- An object that is read as an event gives its type once. -/
theorem decode_object_cases {members : List Member} {closed : Bool} {e : Event}
    (h : decode (.object members closed) = .ok e) :
    ∃ kind : Kind, members.filter isKindMember = [(some kindName, .string (some kind.name))] ∧
      ofMembers (members.filter (!isKindMember ·)) kind = .ok e := by
  simp only [decode] at h
  split at h
  next =>
    split at h
    next name r hfound =>
      obtain ⟨kind, hkind, hnotice⟩ := Except.bind_eq_ok_iff.1 h
      have hname : isKindMember (name, r) = true := by
        have hmem : (name, r) ∈ members.filter isKindMember := by
          rw [hfound]
          exact List.mem_singleton_self _
        exact (List.mem_filter.1 hmem).2
      obtain rfl : name = some kindName := eq_of_beq hname
      rw [Kind.eq_of_decode hkind] at hfound
      exact ⟨kind, hfound, hnotice⟩
    next => contradiction
  next => contradiction

theorem refuses : Refuses decode Faulty := by
  intro r e h hfaulty
  cases hfaulty with
  | @kind members closed hcount =>
      obtain ⟨kind, hkind, _⟩ := decode_object_cases h
      have honce : occurrences kindName members = 1 := by
        have hlength : occurrences kindName members = (members.filter isKindMember).length :=
          List.countP_eq_length_filter
        rw [hlength, hkind]
        rfl
      exact hcount honce
  | @notice members closed hnotice =>
      obtain ⟨kind, hkind, hread⟩ := decode_object_cases h
      have hmem : (some kindName, .string (some kind.name)) ∈ members.filter isKindMember := by
        rw [hkind]
        exact List.mem_singleton_self _
      have hfaulty := hnotice kind (List.mem_filter.1 hmem).1
      cases kind with
      | received => exact readAs_received.not_faulty hread closed hfaulty
      | cancelled => exact readAs_cancelled.not_faulty hread closed hfaulty

end Event

/-- Coins, amounts, contexts, counters, transfers, fees and events are read alike however they are
laid out, and refused if a field is repeated or missing.  No field may be missing but the next id
of a counter and the contract in a notice. -/
theorem layouts_are_read_alike :
    ReadsTexts Coin.format.decode Coin.format.LaidOutFlat Coin.format.FaultyFlat ∧
      ReadsTexts TokenAmount.format.decode TokenAmount.format.LaidOutFlat
        TokenAmount.format.FaultyFlat ∧
      ReadsTexts ExecutionContext.format.decode ExecutionContext.format.LaidOutFlat
        ExecutionContext.format.FaultyFlat ∧
      ReadsTexts IdCounter.format.decode IdCounter.format.LaidOutFlat
        IdCounter.format.FaultyFlat ∧
      ReadsTexts Transfer.format.decode (Transfer.format.LaidOut Transfer.fieldLayout)
        (Transfer.format.Faulty Transfer.fieldFaulty) ∧
      ReadsTexts FeeSummary.format.decode FeeSummary.format.LaidOutFlat
        FeeSummary.format.FaultyFlat ∧
      ReadsTexts Event.decode Event.LaidOut Event.Faulty ∧
      (∀ i, Coin.format.absent i = none) ∧ (∀ i, TokenAmount.format.absent i = none) ∧
      (∀ i, ExecutionContext.format.absent i = none) ∧ (∀ i, Transfer.format.absent i = none) ∧
      (∀ i, FeeSummary.format.absent i = none) ∧
      (∀ i, i ≠ .contract → ReceiptNotice.format.absent i = none) ∧
      ∀ i, i ≠ .contract → CancellationNotice.format.absent i = none := by
  have hreceipt : ∀ i, i ≠ .contract → ReceiptNotice.format.absent i = none := by
    intro i hi
    cases i with
    | contract => contradiction
    | _ => rfl
  have hcancellation : ∀ i, i ≠ .contract → CancellationNotice.format.absent i = none := by
    intro i hi
    cases i with
    | contract => contradiction
    | _ => rfl
  exact ⟨Coin.lawful_format.readsTexts, TokenAmount.lawful_format.readsTexts,
    ExecutionContext.lawful_format.readsTexts, IdCounter.lawful_format.readsTexts,
    Transfer.readsTexts, FeeSummary.lawful_format.readsTexts,
    Event.accepts.readsTexts Event.refuses, fun _ => rfl, fun _ => rfl, fun _ => rfl,
    fun _ => rfl, fun _ => rfl, hreceipt, hcancellation⟩

namespace Transfer

def sample : Transfer := ⟨7, ⟨"alice"⟩, .zero, ⟨.zero, 5⟩, ⟨.zero, 2⟩⟩

/-- The token is an array, and the members of the fee stand backwards behind a note. -/
def samplePart : Field → Json
  | .token => .array [Json.address .zero, Json.amount 5]
  | .fee => .object [("note", .null), ("amount", Json.amount 2), ("contract", Json.address .zero)]
  | i => format.write i (format.get sample i)

/-- The members stand backwards, behind a mark that no field has the name of. -/
def sampleLayout : Json :=
  .object (("marked", .bool true) ::
    (format.fields.map fun i => (format.name i, samplePart i)).reverse)

theorem laidOut_sample : format.LaidOut fieldLayout sample sampleLayout := by
  have hfee : TokenAmount.format.LaidOutFlat sample.fee (samplePart .fee) := by
    have hother : ∀ other ∈ [("note", Json.null)],
        (∀ i, TokenAmount.format.name i ≠ other.1) ∧ other.2.IsScalar := by
      refine List.forall_mem_singleton.2 ⟨fun i => ?_, .null⟩
      cases i <;> decide
    exact TokenAmount.lawful_format.laidOut_of_perm hother
      (List.reverse_perm (TokenAmount.format.members sample.fee ++ [("note", Json.null)]))
  have htoken : TokenAmount.format.LaidOutFlat sample.token
      (.array (TokenAmount.format.fields.map fun i =>
        TokenAmount.format.write i (TokenAmount.format.get sample.token i))) :=
    .array fun _ => rfl
  have hvalue : ∀ i ∈ format.fields, fieldLayout i (format.get sample i) (samplePart i)
    | .id, _ => rfl
    | .sender, _ => rfl
    | .destination, _ => rfl
    | .token, _ => htoken
    | .fee, _ => hfee
  have hother : ∀ other ∈ [("marked", Json.bool true)],
      (∀ i, format.name i ≠ other.1) ∧ other.2.IsScalar := by
    refine List.forall_mem_singleton.2 ⟨fun i => ?_, .bool true⟩
    cases i <;> decide
  exact .object (by decide) (fun i => .inl (format.mem_fields i)) hvalue hother
    (List.reverse_perm (format.fields.map (fun i => (format.name i, samplePart i)) ++
      [("marked", Json.bool true)]))

end Transfer

/-- A transfer with its members backwards is read, and a coin with two amounts is not. -/
theorem layouts_are_read_alike_of_sample :
    Transfer.format.decode.run (String.ofList (' ' :: Transfer.sampleLayout.write.toList)) =
        .ok Transfer.sample ∧
      ∃ e, Coin.format.decode.run
        (Json.object [("amount", Json.amount 5), ("denom", .string "uatom"),
          ("amount", Json.amount 5)]).write = .error e := by
  obtain ⟨⟨_, hcoin⟩, _, _, _, ⟨htransfer, _⟩, _⟩ := layouts_are_read_alike
  constructor
  · refine htransfer _ _ ⟨Transfer.sampleLayout, Transfer.laidOut_sample, ?_⟩
    rw [String.toList_ofList, Json.write, String.toList_ofList]
    exact .blank rfl (Json.spells_flatMap_spell _)
  · refine hcoin _ ?_
    rw [Json.ofText_write]
    · exact .repeated .amount (by decide)
    · refine .object (List.forall_mem_cons.2 ⟨.string _, List.forall_mem_cons.2 ⟨.string _, ?_⟩⟩)
      exact List.forall_mem_singleton.2 (.string _)

end WithdrawalPool
