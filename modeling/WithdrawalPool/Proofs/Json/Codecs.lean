/-
What is written is read back.  A record is read back if each of its fields is, whatever the order
of its members and whatever members there are besides, as long as none comes twice.
-/
import Mathlib.Data.List.Nodup
import WithdrawalPool.Json.Record
import WithdrawalPool.Codec.Records
import WithdrawalPool.Proofs.Json.Parsing

namespace WithdrawalPool

namespace Json

/-- The decoder reads every value back from what the encoder makes of it. -/
structure RoundTrips {α : Type} (decoder : Decoder α) (encode : α → Json) : Prop where
  plain : ∀ a, (encode a).Plain
  decode : ∀ a, decoder (encode a).reading = .ok a

section

variable {α : Type} {decoder : Decoder α} {encode : α → Json}

/-- The text that a value is written as is read back as the value. -/
theorem RoundTrips.run (h : RoundTrips decoder encode) (a : α) :
    decoder.run (encode a).write = .ok a := by
  rw [Decoder.run, ofText_write (h.plain a), h.decode a]
  rfl

theorem roundTrips_text : RoundTrips Decoder.text Json.string where
  plain := .string
  decode _ := rfl

theorem roundTrips_bool : RoundTrips Decoder.bool Json.bool where
  plain := .bool
  decode _ := rfl

theorem roundTrips_uint64 : RoundTrips Decoder.uint64 uint64 where
  plain n := .number (Numeral.plain_ofNat n.toNat)
  decode n := by
    have hvalue := Numeral.uint64?_ofNat_toNat n
    rw [uint64, nat, reading, Decoder.uint64, hvalue]

theorem roundTrips_address : RoundTrips Decoder.address address where
  plain a := .string a.text
  decode a := by
    have hvalue : (Address.ofText a.text).mapError DecodeError.address = .ok a := by
      rw [Address.ofText_text]
      rfl
    exact hvalue

theorem roundTrips_amount : RoundTrips Decoder.amount amount where
  plain n := .string (Amount.text n)
  decode n := by
    have hvalue := Amount.ofText?_text n
    simp only [amount, reading, Decoder.amount, Decoder.text, bind, Except.bind, hvalue]
    rfl

theorem roundTrips_accountId :
    RoundTrips (fun r => AccountId.mk <$> Decoder.text r) fun a => .string a.text where
  plain a := .string a.text
  decode _ := rfl

theorem Decoder.optional_of_ne_null {r : Reading} (hnull : r ≠ .null) :
    optional decoder r = some <$> decoder r := by
  unfold optional
  split
  next => contradiction
  next => rfl

/-- What is never written as null can be left out. -/
theorem RoundTrips.optional (h : RoundTrips decoder encode)
    (hnull : ∀ a, (encode a).reading ≠ .null) :
    RoundTrips (Decoder.optional decoder) (Json.optional encode) where
  plain
    | none => .null
    | some a => h.plain a
  decode
    | none => rfl
    | some a => by
      rw [Json.optional, Decoder.optional_of_ne_null (hnull a), h.decode a]
      rfl

end

namespace RecordFormat

variable {α ι : Type} {T : ι → Type} [DecidableEq ι] {format : RecordFormat α ι T}

/-- No two fields have one name, and every field is read back. -/
structure Lawful (format : RecordFormat α ι T) : Prop where
  names : (format.fields.map format.name).Nodup
  field : ∀ i, RoundTrips (format.read i) (format.write i)

/-- The field with a name. -/
def fieldNamed (format : RecordFormat α ι T) (name : String) : Option ι :=
  format.fields.find? (format.name · = name)

/-- The fields that members mention, in the order of the members. -/
def mentioned (format : RecordFormat α ι T) (members : List Member) : List ι :=
  members.filterMap fun member => member.1.bind format.fieldNamed

/-- The member is named, and gives its value to the field if it has the name of one. -/
def Gives (format : RecordFormat α ι T) (value : (i : ι) → T i) (member : Member) : Prop :=
  ∃ name, member.1 = some name ∧
    ∀ i, format.fieldNamed name = some i → format.read i member.2 = .ok (value i)

/-- The fields in a list have been read. -/
def slotsOf (value : (i : ι) → T i) (known : List ι) : Slots T :=
  fun i => if i ∈ known then some (value i) else none

theorem emptySlots_eq_slotsOf (value : (i : ι) → T i) :
    (emptySlots : Slots T) = slotsOf value [] := by
  funext i
  simp [emptySlots, slotsOf]

theorem fill_slotsOf (value : (i : ι) → T i) (known : List ι) (i : ι) :
    fill (slotsOf value known) i (value i) = slotsOf value (known ++ [i]) := by
  funext j
  by_cases h : i = j
  · subst h
    simp [fill, slotsOf]
  · have hne : j ≠ i := Ne.symm h
    simp [fill, slotsOf, h, hne]

/-- Members that give the values, none of them twice, fill the fields that they mention. -/
theorem foldlM_readMember {value : (i : ι) → T i} {members : List Member}
    (hgives : ∀ member ∈ members, format.Gives value member) {known : List ι}
    (hnodup : (known ++ format.mentioned members).Nodup) :
    members.foldlM format.readMember (slotsOf value known) =
      .ok (slotsOf value (known ++ format.mentioned members)) := by
  induction members generalizing known with
  | nil =>
      rw [mentioned, List.filterMap_nil, List.append_nil]
      rfl
  | cons member rest ih =>
      obtain ⟨⟨name, hname, hread⟩, hrest⟩ := List.forall_mem_cons.1 hgives
      obtain ⟨name?, r⟩ := member
      obtain rfl : name? = some name := hname
      have hmentioned : format.mentioned ((some name, r) :: rest) =
          (format.fieldNamed name).toList ++ format.mentioned rest := by
        unfold mentioned
        cases hfield : format.fieldNamed name <;> simp [hfield]
      rw [hmentioned] at hnodup ⊢
      rw [List.foldlM_cons]
      cases hfield : format.fieldNamed name with
      | none =>
          have hskip : format.readMember (slotsOf value known) (some name, r) =
              .ok (slotsOf value known) := by
            rw [fieldNamed] at hfield
            rw [readMember, hfield]
          rw [hfield] at hnodup
          rw [hskip]
          exact ih hrest hnodup
      | some i =>
          rw [hfield] at hnodup
          have hfresh : i ∉ known := by
            rw [List.nodup_append] at hnodup
            intro hmem
            exact hnodup.2.2 i hmem i (by simp) rfl
          have hfill : format.readMember (slotsOf value known) (some name, r) =
              .ok (slotsOf value (known ++ [i])) := by
            have hempty : (slotsOf value known i).isSome = false := by simp [slotsOf, hfresh]
            have hvalue : format.read i r = .ok (value i) := hread i hfield
            rw [fieldNamed] at hfield
            rw [readMember, hfield, ← fill_slotsOf]
            simp only [hempty, Bool.false_eq_true, ↓reduceIte, hvalue]
            rfl
          rw [Option.toList_some, ← List.append_assoc] at hnodup ⊢
          rw [hfill]
          exact ih hrest hnodup

/-- Fields that are read, and fields whose default is the value, make up a record. -/
theorem complete_slotsOf {value : (i : ι) → T i} {default : (i : ι) → Option (T i)}
    {known : List ι} (h : ∀ i, i ∈ known ∨ default i = some (value i)) :
    format.complete default (slotsOf value known) = .ok (format.make value) := by
  have hvalue (i : ι) : (slotsOf value known i).or (default i) = some (value i) := by
    by_cases hi : i ∈ known
    · simp [slotsOf, hi]
    · simp [slotsOf, hi, (h i).resolve_left hi]
  simp [complete, hvalue]

/-- An object is read as the record of the values that its members give, in whatever order. -/
theorem ofMembers_eq_ok {value : (i : ι) → T i} {members : List Member}
    (hgives : ∀ member ∈ members, format.Gives value member)
    (hnodup : (format.mentioned members).Nodup)
    (hall : ∀ i, i ∈ format.mentioned members ∨ format.absent i = some (value i)) :
    format.ofMembers members true = .ok (format.make value) := by
  have hread : members.foldlM format.readMember (slotsOf value []) =
      .ok (slotsOf value (format.mentioned members)) :=
    foldlM_readMember hgives hnodup
  rw [ofMembers, emptySlots_eq_slotsOf value, hread]
  exact complete_slotsOf hall

omit [DecidableEq ι] in
theorem Lawful.fieldNamed_name (h : format.Lawful) (i : ι) :
    format.fieldNamed (format.name i) = some i := by
  unfold fieldNamed
  cases hfind : format.fields.find? (format.name · = format.name i) with
  | none =>
      have hnot := List.find?_eq_none.1 hfind i (format.mem_fields i)
      simp at hnot
  | some j =>
      have hname : format.name j = format.name i := by simpa using List.find?_some hfind
      rw [List.inj_on_of_nodup_map h.names (format.mem_fields j) (format.mem_fields i) hname]

omit [DecidableEq ι] in
theorem fieldNamed_eq_none {name : String} (h : ∀ i, format.name i ≠ name) :
    format.fieldNamed name = none :=
  List.find?_eq_none.2 fun i _ => by simpa using h i

section

variable {value : ι → Json} {present : List ι} {others members : List (String × Json)}

omit [DecidableEq ι] in
/-- The members mention the fields that are present, and no others. -/
theorem Lawful.mentioned_perm (h : format.Lawful)
    (hothers : ∀ other ∈ others, ∀ i, format.name i ≠ other.1)
    (hmembers : members.Perm (present.map (fun i => (format.name i, value i)) ++ others)) :
    (format.mentioned (memberReadings members)).Perm present := by
  let field (member : String × Json) : Option ι := format.fieldNamed member.1
  have hmentioned : format.mentioned (memberReadings members) = members.filterMap field := by
    rw [mentioned, memberReadings_eq_map, List.filterMap_map]
    rfl
  have hpresent : (present.map fun i => (format.name i, value i)).filterMap field = present := by
    have hfield : (field ∘ fun i => (format.name i, value i)) = some := by
      funext i
      exact h.fieldNamed_name i
    rw [List.filterMap_map, hfield, List.filterMap_some]
  have hnone : others.filterMap field = [] :=
    List.filterMap_eq_nil_iff.2 fun other hother => fieldNamed_eq_none (hothers other hother)
  have hperm := hmembers.filterMap field
  rw [List.filterMap_append, hpresent, hnone, List.append_nil] at hperm
  rwa [hmentioned]

omit [DecidableEq ι] in
theorem Lawful.gives_of_perm (h : format.Lawful) {content : (i : ι) → T i}
    (hread : ∀ i ∈ present, format.read i (value i).reading = .ok (content i))
    (hothers : ∀ other ∈ others, ∀ i, format.name i ≠ other.1)
    (hmembers : members.Perm (present.map (fun i => (format.name i, value i)) ++ others)) :
    ∀ member ∈ memberReadings members, format.Gives content member := by
  rw [memberReadings_eq_map]
  refine List.forall_mem_map.2 fun member hmember => ⟨member.1, rfl, fun j hj => ?_⟩
  rcases List.mem_append.1 (hmembers.mem_iff.1 hmember) with hknown | hother
  · obtain ⟨i, hi, rfl⟩ := List.mem_map.1 hknown
    rw [h.fieldNamed_name] at hj
    obtain rfl := Option.some.inj hj
    exact hread i hi
  · rw [fieldNamed_eq_none (hothers member hother)] at hj
    contradiction

/-- An object is read by the fields that are present, in any order and with others among them. -/
theorem Lawful.ofMembers_of_perm (h : format.Lawful) {content : (i : ι) → T i}
    (hnodup : present.Nodup) (hall : ∀ i, i ∈ present ∨ format.absent i = some (content i))
    (hread : ∀ i ∈ present, format.read i (value i).reading = .ok (content i))
    (hothers : ∀ other ∈ others, ∀ i, format.name i ≠ other.1)
    (hmembers : members.Perm (present.map (fun i => (format.name i, value i)) ++ others)) :
    format.ofMembers (memberReadings members) true = .ok (format.make content) := by
  have hmentioned := h.mentioned_perm hothers hmembers
  refine ofMembers_eq_ok (h.gives_of_perm hread hothers hmembers)
    (hmentioned.nodup_iff.2 hnodup) fun i => ?_
  rw [hmentioned.mem_iff]
  exact hall i

end

theorem Lawful.ofMembers_members (h : format.Lawful) (a : α) :
    format.ofMembers (memberReadings (format.members a)) true = .ok a := by
  have hread : format.ofMembers (memberReadings (format.members a)) true =
      .ok (format.make (format.get a)) := by
    refine h.ofMembers_of_perm (h.names.of_map format.name)
      (fun i => .inl (format.mem_fields i)) (fun i _ => (h.field i).decode _)
      (List.forall_mem_nil _) ?_
    rw [List.append_nil]
    exact List.Perm.refl _
  rw [hread, format.make_get]

omit [DecidableEq ι] in
theorem Lawful.plain_members (h : format.Lawful) (a : α) :
    ∀ member ∈ format.members a, member.2.Plain := by
  intro member hmember
  obtain ⟨i, _, rfl⟩ := List.mem_map.1 hmember
  exact (h.field i).plain _

/-- Records are read back if their fields are. -/
theorem Lawful.roundTrips (h : format.Lawful) : RoundTrips format.decode format.encode where
  plain a := .object (h.plain_members a)
  decode := h.ofMembers_members

end RecordFormat

end Json

end WithdrawalPool
