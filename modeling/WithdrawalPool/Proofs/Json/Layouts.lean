/-
The ways to lay a value out.  A record may be an object, its members in any order and scalars of
other names among them, or an array of its fields in their order, and so may each record within
it.  Whichever way it is laid out, and with whatever blanks, it is read as the same value.
-/
import WithdrawalPool.Proofs.Json.Codecs

namespace WithdrawalPool

namespace Json

/-- Words, strings, and numbers of 64 bits. -/
inductive IsScalar : Json → Prop
  | null : IsScalar .null
  | bool (value : Bool) : IsScalar (.bool value)
  | string (text : String) : IsScalar (.string text)
  | uint64 (n : UInt64) : IsScalar (Json.uint64 n)

theorem IsScalar.plain {value : Json} (h : value.IsScalar) : value.Plain := by
  cases h with
  | null => exact .null
  | bool value => exact .bool value
  | string text => exact .string text
  | uint64 n => exact roundTrips_uint64.plain n

/-- The values that an array or an object is made of. -/
def parts : Json → List Json
  | .array items => items
  | .object members => members.map Prod.snd
  | _ => []

theorem itemReadings_eq_map (items : List Json) : itemReadings items = items.map reading := by
  induction items with
  | nil => rfl
  | cons item rest ih => rw [itemReadings, ih, List.map_cons]

/-- Which values stand for one of `α`. -/
abbrev Layout (α : Type) := α → Json → Prop

section

variable {α : Type} {decoder : Decoder α} {encode : α → Json} {layout : Layout α}

/-- A value stands only for what it is the encoding of. -/
def written (encode : α → Json) : Layout α := fun a v => v = encode a

/-- The text is one of the layouts, with any blanks between the tokens. -/
def Layout.IsText (layout : Layout α) (a : α) (text : String) : Prop :=
  ∃ v, layout a v ∧ Spells text.toList v.tokens

/-- The decoder reads every layout as what it stands for. -/
structure Accepts (decoder : Decoder α) (layout : Layout α) : Prop where
  plain : ∀ {a v}, layout a v → v.Plain
  decode : ∀ {a v}, layout a v → decoder v.reading = .ok a

theorem Accepts.run (h : Accepts decoder layout) (a : α) (text : String)
    (htext : layout.IsText a text) : decoder.run text = .ok a := by
  obtain ⟨v, hv, hspells⟩ := htext
  rw [Decoder.run, ofText_of_spells (h.plain hv) hspells, h.decode hv]
  rfl

theorem RoundTrips.accepts (h : RoundTrips decoder encode) : Accepts decoder (written encode) where
  plain := by
    rintro a v rfl
    exact h.plain a
  decode := by
    rintro a v rfl
    exact h.decode a

end

namespace RecordFormat

variable {α ι : Type} {T : ι → Type} [DecidableEq ι] {format : RecordFormat α ι T}
  {layout : (i : ι) → Layout (T i)} {a : α} {v : Json}

/-- A record is laid out as an object or as an array.  Each field in it has a layout of its own,
and only an object may leave out what it need not mention. -/
inductive LaidOut (format : RecordFormat α ι T) (layout : (i : ι) → Layout (T i)) (a : α) :
    Json → Prop
  | object {value : ι → Json} {present : List ι} {others members : List (String × Json)}
      (hnodup : present.Nodup)
      (hpresent : ∀ i, i ∈ present ∨ format.absent i = some (format.get a i))
      (hvalue : ∀ i ∈ present, layout i (format.get a i) (value i))
      (hothers : ∀ other ∈ others, (∀ i, format.name i ≠ other.1) ∧ other.2.IsScalar)
      (hmembers : members.Perm (present.map (fun i => (format.name i, value i)) ++ others)) :
      LaidOut format layout a (.object members)
  | array {value : ι → Json} (hvalue : ∀ i, layout i (format.get a i) (value i)) :
      LaidOut format layout a (.array (format.fields.map value))

/-- The layouts of a record whose fields are written in one way only. -/
abbrev LaidOutFlat (format : RecordFormat α ι T) : Layout α :=
  format.LaidOut fun i => written (format.write i)

omit [DecidableEq ι] in
/-- The order of the members is of no account. -/
theorem LaidOut.perm {members members' : List (String × Json)}
    (h : format.LaidOut layout a (.object members)) (hperm : members'.Perm members) :
    format.LaidOut layout a (.object members') := by
  cases h with
  | object hnodup hpresent hvalue hothers hmembers =>
      exact .object hnodup hpresent hvalue hothers (hperm.trans hmembers)

omit [DecidableEq ι] in
/-- The members that a record is written with may stand in any order, with others among them. -/
theorem Lawful.laidOut_of_perm (h : format.Lawful) {others members : List (String × Json)}
    (hothers : ∀ other ∈ others, (∀ i, format.name i ≠ other.1) ∧ other.2.IsScalar)
    (hmembers : members.Perm (format.members a ++ others)) :
    format.LaidOutFlat a (.object members) :=
  .object (h.names.of_map format.name) (fun i => .inl (format.mem_fields i)) (fun _ _ => rfl)
    hothers hmembers

omit [DecidableEq ι] in
/-- What holds of scalars and of the layouts of the fields holds of every part of a record. -/
theorem LaidOut.forall_mem_parts {p : Json → Prop} (h : format.LaidOut layout a v)
    (hscalar : ∀ value, value.IsScalar → p value)
    (hfield : ∀ i b value, layout i b value → p value) : ∀ part ∈ v.parts, p part := by
  cases h with
  | object _ _ hvalue hothers hmembers =>
      refine List.forall_mem_map.2 fun member hmember => ?_
      rcases List.mem_append.1 (hmembers.mem_iff.1 hmember) with hpresent | hother
      · obtain ⟨i, hi, rfl⟩ := List.mem_map.1 hpresent
        exact hfield i _ _ (hvalue i hi)
      · exact hscalar _ (hothers member hother).2
  | array hvalue =>
      refine List.forall_mem_map.2 fun i _ => ?_
      exact hfield i _ _ (hvalue i)

omit [DecidableEq ι] in
theorem LaidOut.plain (h : format.LaidOut layout a v)
    (hfield : ∀ i b value, layout i b value → value.Plain) : v.Plain := by
  have hparts := h.forall_mem_parts (fun _ => IsScalar.plain) hfield
  cases h with
  | object => exact .object (List.forall_mem_map.1 hparts)
  | array => exact .array hparts

/-- The items of an array fill the fields one after the other, as far as they go. -/
theorem readItems_forall₂ {value : (i : ι) → T i} {fields : List ι} {items : List Reading}
    (hread : List.Forall₂ (fun i item => format.read i item = .ok (value i)) fields items)
    (known rest : List ι) :
    format.readItems (slotsOf value known) (fields ++ rest) items =
      .ok (slotsOf value (known ++ fields)) := by
  induction hread generalizing known with
  | nil =>
      rw [List.append_nil, readItems]
  | @cons i item fields items hitem _ ih =>
      have hrest := ih (known ++ [i])
      rw [List.append_assoc, List.singleton_append, ← fill_slotsOf] at hrest
      rw [List.cons_append, readItems, hitem]
      exact hrest

/-- An array of the first fields is read as the record of their values, if the fields that it is
too short for hold theirs. -/
theorem ofItems_forall₂ {value : (i : ι) → T i} {fields rest : List ι} {items : List Reading}
    (hfields : fields ++ rest = format.fields)
    (hread : List.Forall₂ (fun i item => format.read i item = .ok (value i)) fields items)
    (hall : ∀ i, i ∈ fields ∨ format.beyond i = some (value i)) :
    format.ofItems items true = .ok (format.make value) := by
  rw [ofItems, emptySlots_eq_slotsOf value, ← hfields, readItems_forall₂ hread, List.nil_append]
  exact complete_slotsOf hall

/-- A record is read from each of its layouts, if every field is. -/
theorem Lawful.decode_laidOut (h : format.Lawful)
    (hfield : ∀ i, Accepts (format.read i) (layout i)) (hv : format.LaidOut layout a v) :
    format.decode v.reading = .ok a := by
  cases hv with
  | @object value present others members hnodup hpresent hvalue hothers hmembers =>
      have hread : format.ofMembers (memberReadings members) true =
          .ok (format.make (format.get a)) :=
        h.ofMembers_of_perm hnodup hpresent (fun i hi => (hfield i).decode (hvalue i hi))
          (fun other hother => (hothers other hother).1) hmembers
      rw [format.make_get] at hread
      exact hread
  | @array value hvalue =>
      have hitems : List.Forall₂ (fun i item => format.read i item = .ok (format.get a i))
          format.fields (format.fields.map fun i => (value i).reading) := by
        rw [List.forall₂_map_right_iff, List.forall₂_same]
        exact fun i _ => (hfield i).decode (hvalue i)
      have hread := ofItems_forall₂ (List.append_nil _) hitems fun i => .inl (format.mem_fields i)
      rw [format.make_get] at hread
      rw [reading, itemReadings_eq_map, List.map_map]
      exact hread

theorem Lawful.accepts (h : format.Lawful) (hfield : ∀ i, Accepts (format.read i) (layout i)) :
    Accepts format.decode (format.LaidOut layout) where
  plain hv := hv.plain fun i _ _ => (hfield i).plain
  decode := h.decode_laidOut hfield

theorem Lawful.accepts_flat (h : format.Lawful) : Accepts format.decode format.LaidOutFlat :=
  h.accepts fun i => (h.field i).accepts

end RecordFormat

end Json

end WithdrawalPool
