/-
Records that are given in part.  An object gives the fields that it mentions, in any order, and an
array gives the first ones.  Where every field has a fallback, the others hold theirs, and whatever
is given goes into its own field and no other.
-/
import WithdrawalPool.Proofs.Json.Layouts
import WithdrawalPool.Proofs.Json.Refusals

namespace WithdrawalPool

namespace Json

namespace RecordFormat

variable {α ι : Type} {T : ι → Type} [DecidableEq ι] {format : RecordFormat α ι T}
  {holds : (i : ι) → T i → Reading → Prop} {given : Slots T} {fallback : (i : ι) → T i}

/-- What is read gives those values and no others: an object mentions each of their fields once, and
an array is made of them.  Other members of an object may have any value. -/
inductive Conveys (format : RecordFormat α ι T) (holds : (i : ι) → T i → Reading → Prop)
    (given : Slots T) : Reading → Prop
  | object {members : List Member} (hnamed : ∀ member ∈ members, member.1.isSome = true)
      (honce : ∀ i, occurrences (format.name i) members = if (given i).isSome then 1 else 0)
      (hvalue : ∀ i value r, given i = some value → (some (format.name i), r) ∈ members →
        holds i value r) : Conveys format holds given (.object members true)
  | array {present rest : List ι} {items : List Reading}
      (hfields : present ++ rest = format.fields)
      (hpresent : ∀ i, (given i).isSome = true ↔ i ∈ present)
      (hvalue : List.Forall₂ (fun i item => ∃ value, given i = some value ∧ holds i value item)
        present items) : Conveys format holds given (.array items true)

/-- The ways to lay out those values: an object has them in any order, with scalars of other names
among them, and an array has them in the order of the fields. -/
inductive LaidOutInPart (format : RecordFormat α ι T) (given : Slots T) : Json → Prop
  | object {value : ι → Json} {present : List ι} {others members : List (String × Json)}
      (hnodup : present.Nodup) (hpresent : ∀ i, (given i).isSome = true ↔ i ∈ present)
      (hvalue : ∀ i v, given i = some v → value i = format.write i v)
      (hothers : ∀ other ∈ others, (∀ i, format.name i ≠ other.1) ∧ other.2.IsScalar)
      (hmembers : members.Perm (present.map (fun i => (format.name i, value i)) ++ others)) :
      LaidOutInPart format given (.object members)
  | array {value : ι → Json} {present rest : List ι} (hfields : present ++ rest = format.fields)
      (hpresent : ∀ i, (given i).isSome = true ↔ i ∈ present)
      (hvalue : ∀ i v, given i = some v → value i = format.write i v) :
      LaidOutInPart format given (.array (present.map value))

omit [DecidableEq ι] in
theorem Lawful.fieldNamed_eq_some_iff (h : format.Lawful) {name : String} {i : ι} :
    format.fieldNamed name = some i ↔ name = format.name i := by
  constructor
  · exact fun hfield => (name_of_fieldNamed hfield).symm
  · rintro rfl
    exact h.fieldNamed_name i

omit [DecidableEq ι] in
theorem Lawful.name_injective (h : format.Lawful) : Function.Injective format.name := by
  intro i j hname
  have hfield := h.fieldNamed_name i
  rw [hname, h.fieldNamed_name] at hfield
  exact (Option.some.inj hfield).symm

/-- A field is mentioned as often as its name occurs. -/
theorem Lawful.count_mentioned (h : format.Lawful) (i : ι) (members : List Member) :
    (format.mentioned members).count i = occurrences (format.name i) members := by
  rw [mentioned, List.count_filterMap, occurrences]
  refine List.countP_congr fun member _ => ?_
  rw [beq_iff_eq, beq_iff_eq, Option.bind_eq_some_iff]
  simp only [h.fieldNamed_eq_some_iff, exists_eq_right]

/-- What is given is read into its fields, and the other fields hold their fallbacks. -/
theorem Lawful.decode_conveyed (h : format.Lawful)
    (hholds : ∀ i value r, holds i value r → format.read i r = .ok value)
    (habsent : ∀ i, format.absent i = some (fallback i))
    (hbeyond : ∀ i, format.beyond i = some (fallback i)) {root : Reading}
    (hroot : format.Conveys holds given root) :
    format.decode root = .ok (format.make fun i => (given i).getD (fallback i)) := by
  have hfallback (i : ι) (hi : ¬ (given i).isSome = true) :
      fallback i = (given i).getD (fallback i) := by
    rw [Option.not_isSome_iff_eq_none.1 hi, Option.getD_none]
  cases hroot with
  | @object members hnamed honce hvalue =>
      have hcount (i : ι) :
          (format.mentioned members).count i = if (given i).isSome then 1 else 0 :=
        (h.count_mentioned i members).trans (honce i)
      have hmentioned (i : ι) : i ∈ format.mentioned members ↔ (given i).isSome = true := by
        rw [← List.count_pos_iff, hcount]
        split <;> simp_all
      refine ofMembers_eq_ok (fun member hmember => ?_) ?_ fun i => ?_
      · obtain ⟨name, hname⟩ := Option.isSome_iff_exists.1 (hnamed member hmember)
        refine ⟨name, hname, fun i hi => ?_⟩
        obtain rfl := h.fieldNamed_eq_some_iff.1 hi
        have hmem : i ∈ format.mentioned members :=
          List.mem_filterMap.2 ⟨member, hmember, by rw [hname, Option.bind_some, hi]⟩
        obtain ⟨value, hgiven⟩ := Option.isSome_iff_exists.1 ((hmentioned i).1 hmem)
        show format.read i member.2 = .ok ((given i).getD (fallback i))
        rw [hgiven, Option.getD_some]
        exact hholds i value member.2 (hvalue i value member.2 hgiven (hname ▸ hmember))
      · refine List.nodup_iff_count_le_one.2 fun i => ?_
        rw [hcount]
        split <;> omega
      · by_cases hi : (given i).isSome = true
        · exact .inl ((hmentioned i).2 hi)
        · exact .inr ((habsent i).trans (congrArg some (hfallback i hi)))
  | @array present rest items hfields hpresent hvalue =>
      refine ofItems_forall₂ hfields (hvalue.imp ?_) fun i => ?_
      · rintro i item ⟨value, hgiven, hitem⟩
        rw [hgiven, Option.getD_some]
        exact hholds i value item hitem
      · by_cases hi : (given i).isSome = true
        · exact .inl ((hpresent i).1 hi)
        · exact .inr ((hbeyond i).trans (congrArg some (hfallback i hi)))

omit [DecidableEq ι] in
theorem LaidOutInPart.plain {v : Json} (h : format.Lawful) (hv : format.LaidOutInPart given v) :
    v.Plain := by
  have hplain {value : ι → Json} {present : List ι}
      (hpresent : ∀ i, (given i).isSome = true ↔ i ∈ present)
      (hvalue : ∀ i v, given i = some v → value i = format.write i v) :
      ∀ i ∈ present, (value i).Plain := by
    intro i hi
    obtain ⟨v, hgiven⟩ := Option.isSome_iff_exists.1 ((hpresent i).2 hi)
    rw [hvalue i v hgiven]
    exact (h.field i).plain v
  cases hv with
  | object _ hpresent hvalue hothers hmembers =>
      refine .object fun member hmember => ?_
      rcases List.mem_append.1 (hmembers.mem_iff.1 hmember) with hknown | hother
      · obtain ⟨i, hi, rfl⟩ := List.mem_map.1 hknown
        exact hplain hpresent hvalue i hi
      · exact (hothers member hother).2.plain
  | array _ hpresent hvalue => exact .array (List.forall_mem_map.2 (hplain hpresent hvalue))

/-- Values that are laid out are conveyed. -/
theorem Lawful.conveys_of_laidOutInPart (h : format.Lawful)
    (hholds : ∀ i value r, format.read i r = .ok value → holds i value r) {v : Json}
    (hv : format.LaidOutInPart given v) : format.Conveys holds given v.reading := by
  have hread {value : ι → Json} (hvalue : ∀ i v, given i = some v → value i = format.write i v)
      {i : ι} {v : T i} (hgiven : given i = some v) :
      format.read i (value i).reading = .ok v := by
    rw [hvalue i v hgiven]
    exact (h.field i).decode v
  cases hv with
  | @object value present others members hnodup hpresent hvalue hothers hmembers =>
      have hothers := fun other hother => (hothers other hother).1
      have hmentioned := h.mentioned_perm hothers hmembers
      refine .object ?_ (fun i => ?_) fun i v r hgiven hmember => hholds i v r ?_
      · rw [memberReadings_eq_map]
        exact List.forall_mem_map.2 fun _ _ => rfl
      · rw [← h.count_mentioned, hmentioned.count_eq, hnodup.count]
        simp only [hpresent]
      · rw [memberReadings_eq_map] at hmember
        obtain ⟨member, hmem, hparts⟩ := List.mem_map.1 hmember
        obtain ⟨hname, rfl⟩ := Prod.mk.inj hparts
        rcases List.mem_append.1 (hmembers.mem_iff.1 hmem) with hknown | hother
        · obtain ⟨j, _, rfl⟩ := List.mem_map.1 hknown
          obtain rfl := h.name_injective (Option.some.inj hname)
          exact hread hvalue hgiven
        · exact absurd (Option.some.inj hname).symm (hothers member hother i)
  | @array value present rest hfields hpresent hvalue =>
      have hitems : List.Forall₂ (fun i item => ∃ v, given i = some v ∧ holds i v item) present
          (present.map fun i => (value i).reading) := by
        rw [List.forall₂_map_right_iff, List.forall₂_same]
        intro i hi
        obtain ⟨v, hgiven⟩ := Option.isSome_iff_exists.1 ((hpresent i).2 hi)
        exact ⟨v, hgiven, hholds i v _ (hread hvalue hgiven)⟩
      rw [reading, itemReadings_eq_map, List.map_map]
      exact .array hfields hpresent hitems

end RecordFormat

end Json

end WithdrawalPool
