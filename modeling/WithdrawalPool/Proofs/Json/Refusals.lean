/-
Which records are refused.  No field may be mentioned twice, none may be left out that has to be
mentioned, and none may hold what is refused for it.  An object with such a fault is refused
whatever else it holds, even if it breaks off.
-/
import WithdrawalPool.Proofs.Json.Codecs
import WithdrawalPool.Proofs.Running

namespace WithdrawalPool

namespace Json

/-- How many members have a name. -/
def occurrences (name : String) (members : List Member) : Nat :=
  members.countP (·.1 == some name)

theorem occurrences_cons (name : String) (member : Member) (rest : List Member) :
    occurrences name (member :: rest) =
      occurrences name rest + if member.1 = some name then 1 else 0 := by
  simp [occurrences, List.countP_cons]

/-- The decoder accepts nothing that is faulty. -/
def Refuses {α : Type} (decoder : Decoder α) (faulty : Reading → Prop) : Prop :=
  ∀ r a, decoder r = .ok a → ¬ faulty r

theorem Refuses.run {α : Type} {decoder : Decoder α} {faulty : Reading → Prop}
    (h : Refuses decoder faulty) (text : String) (htext : faulty (Document.ofText text).root) :
    ∃ e, decoder.run text = .error e := by
  cases hrun : decoder.run text with
  | error e => exact ⟨e, rfl⟩
  | ok a =>
      obtain ⟨b, hroot, _⟩ := Except.bind_eq_ok_iff.1 hrun
      exact absurd htext (h _ _ hroot)

theorem refuses_nothing {α : Type} (decoder : Decoder α) : Refuses decoder fun _ => False :=
  fun _ _ _ => id

namespace RecordFormat

variable {α ι : Type} {T : ι → Type} [DecidableEq ι] {format : RecordFormat α ι T}
  {faulty : (i : ι) → Reading → Prop} {members : List Member} {slots slots' : Slots T}

/-- The faults of a record: of an object, in what it mentions; of either form, in a field. -/
inductive Faulty (format : RecordFormat α ι T) (faulty : (i : ι) → Reading → Prop) :
    Reading → Prop
  | repeated {members : List Member} {closed : Bool} (i : ι)
      (h : 2 ≤ occurrences (format.name i) members) : Faulty format faulty (.object members closed)
  | missing {members : List Member} {closed : Bool} (i : ι) (habsent : format.absent i = none)
      (h : occurrences (format.name i) members = 0) : Faulty format faulty (.object members closed)
  | member {members : List Member} {closed : Bool} (i : ι) {r : Reading}
      (hmem : (some (format.name i), r) ∈ members) (h : faulty i r) :
      Faulty format faulty (.object members closed)
  | item {items : List Reading} {closed : Bool} (i : ι) {r : Reading}
      (hmem : (i, r) ∈ format.fields.zip items) (h : faulty i r) :
      Faulty format faulty (.array items closed)

/-- The faults of a record whose fields have none of their own to look for. -/
abbrev FaultyFlat (format : RecordFormat α ι T) : Reading → Prop := format.Faulty fun _ _ => False

omit [DecidableEq ι] in
/-- Members that no field has the name of neither make a fault nor mend one. -/
theorem Faulty.filter {closed closed' : Bool} {keep : Member → Bool}
    (hkeep : ∀ i r, keep (some (format.name i), r) = true)
    (h : format.Faulty faulty (.object members closed)) :
    format.Faulty faulty (.object (members.filter keep) closed') := by
  have hcount (i : ι) : occurrences (format.name i) (members.filter keep) =
      occurrences (format.name i) members := by
    unfold occurrences
    rw [List.countP_filter]
    refine List.countP_congr fun ⟨name, r⟩ _ => ?_
    simp only [Bool.and_eq_true, beq_iff_eq, and_iff_left_iff_imp]
    rintro rfl
    exact hkeep i r
  cases h with
  | repeated i h => exact .repeated i ((hcount i).symm ▸ h)
  | missing i habsent h => exact .missing i habsent ((hcount i).trans h)
  | member i hmem h => exact .member i (List.mem_filter.2 ⟨hmem, hkeep i _⟩) h

/-- A member that is accepted is passed over, or it is the first to fill its field. -/
theorem readMember_cases {member : Member} (h : format.readMember slots member = .ok slots') :
    ∃ name, member.1 = some name ∧
      ((format.fieldNamed name = none ∧ slots' = slots) ∨
        ∃ i value, format.fieldNamed name = some i ∧ slots i = none ∧
          format.read i member.2 = .ok value ∧ slots' = fill slots i value) := by
  obtain ⟨_ | name, r⟩ := member
  · contradiction
  refine ⟨name, rfl, ?_⟩
  cases hfield : format.fieldNamed name with
  | none =>
      rw [fieldNamed] at hfield
      rw [readMember, hfield] at h
      exact .inl ⟨rfl, (Except.ok.inj h).symm⟩
  | some i =>
      rw [fieldNamed] at hfield
      simp only [readMember, hfield] at h
      split at h
      next => contradiction
      next hempty =>
        obtain ⟨value, hread, hfill⟩ := Except.bind_eq_ok_iff.1 h
        refine .inr ⟨i, value, rfl, ?_, hread, (Except.ok.inj hfill).symm⟩
        simpa using hempty

omit [DecidableEq ι] in
theorem name_of_fieldNamed {name : String} {i : ι} (h : format.fieldNamed name = some i) :
    format.name i = name := by
  simpa using List.find?_some h

/-- A member that is accepted fills the field that it names, which was empty, and no other. -/
theorem Lawful.readMember_isSome (hformat : format.Lawful) {member : Member}
    (h : format.readMember slots member = .ok slots') (i : ι) :
    (slots' i).isSome.toNat =
      (slots i).isSome.toNat + if member.1 = some (format.name i) then 1 else 0 := by
  obtain ⟨name, hname, ⟨hfield, rfl⟩ | ⟨j, value, hfield, hempty, _, rfl⟩⟩ := readMember_cases h
  · have hne : name ≠ format.name i := by
      rintro rfl
      rw [hformat.fieldNamed_name] at hfield
      contradiction
    simp [hname, hne]
  · by_cases hij : j = i
    · subst hij
      simp [fill, hname, hempty, name_of_fieldNamed hfield]
    · have hne : name ≠ format.name i := by
        rintro rfl
        rw [hformat.fieldNamed_name] at hfield
        exact hij (Option.some.inj hfield).symm
      simp [fill, hij, hname, hne]

/-- Members that are accepted fill the fields that they name, each of them once. -/
theorem Lawful.foldlM_isSome (hformat : format.Lawful)
    (h : members.foldlM format.readMember slots = .ok slots') (i : ι) :
    (slots' i).isSome.toNat =
      (slots i).isSome.toNat + occurrences (format.name i) members := by
  induction members generalizing slots with
  | nil =>
      obtain rfl : slots = slots' := Except.ok.inj h
      rfl
  | cons member rest ih =>
      obtain ⟨middle, hmember, hrest⟩ := Except.bind_eq_ok_iff.1 h
      rw [ih hrest, hformat.readMember_isSome hmember i, occurrences_cons]
      omega

/-- What is accepted for a field was read as a value of it. -/
theorem Lawful.exists_read_of_foldlM (hformat : format.Lawful)
    (h : members.foldlM format.readMember slots = .ok slots') {i : ι} {r : Reading}
    (hmem : (some (format.name i), r) ∈ members) : ∃ value, format.read i r = .ok value := by
  induction members generalizing slots with
  | nil => contradiction
  | cons member rest ih =>
      obtain ⟨middle, hmember, hrest⟩ := Except.bind_eq_ok_iff.1 h
      rcases List.mem_cons.1 hmem with rfl | hlater
      · obtain ⟨name, hname, ⟨hfield, _⟩ | ⟨j, value, hfield, _, hread, _⟩⟩ :=
          readMember_cases hmember
        all_goals
          obtain rfl := Option.some.inj hname
          rw [hformat.fieldNamed_name] at hfield
        · contradiction
        · obtain rfl := Option.some.inj hfield
          exact ⟨value, hread⟩
      · exact ih hrest hlater

theorem exists_read_of_readItems {fields : List ι} {items : List Reading}
    (h : format.readItems slots fields items = .ok slots') {i : ι} {r : Reading}
    (hmem : (i, r) ∈ fields.zip items) : ∃ value, format.read i r = .ok value := by
  induction fields generalizing slots items with
  | nil => contradiction
  | cons j fields ih =>
      cases items with
      | nil => contradiction
      | cons item items =>
          obtain ⟨value, hread, hrest⟩ := Except.bind_eq_ok_iff.1 h
          rcases List.mem_cons.1 hmem with hfirst | hlater
          · obtain ⟨rfl, rfl⟩ := Prod.mk.inj hfirst
            exact ⟨value, hread⟩
          · exact ih hrest hlater

omit [DecidableEq ι] in
theorem isSome_of_complete {default : (i : ι) → Option (T i)} {a : α}
    (h : format.complete default slots = .ok a) (i : ι) :
    ((slots i).or (default i)).isSome = true := by
  unfold complete at h
  split at h
  next hall => exact hall i (format.mem_fields i)
  next => contradiction

/-- The members of a record that is accepted mention each field at most once, and at least once
unless it may be left out. -/
theorem Lawful.occurrences_of_ofMembers (hformat : format.Lawful) {closed : Bool} {a : α}
    (h : format.ofMembers members closed = .ok a) (i : ι) :
    occurrences (format.name i) members ≤ 1 ∧
      (format.absent i = none → occurrences (format.name i) members = 1) := by
  obtain ⟨slots, hread, hrest⟩ := Except.bind_eq_ok_iff.1 h
  have hfilled : (slots i).isSome.toNat = occurrences (format.name i) members := by
    rw [hformat.foldlM_isSome hread i]
    exact Nat.zero_add _
  rw [← hfilled]
  refine ⟨Bool.toNat_le _, fun habsent => ?_⟩
  cases closed with
  | false => contradiction
  | true =>
      have hvalue := isSome_of_complete hrest i
      rw [habsent, Option.or_none] at hvalue
      rw [hvalue]
      rfl

/-- Records with a fault are refused, if faults of their fields are. -/
theorem Lawful.refuses (hformat : format.Lawful)
    (hfield : ∀ i, Refuses (format.read i) (faulty i)) :
    Refuses format.decode (format.Faulty faulty) := by
  intro r a h hfaulty
  cases hfaulty with
  | repeated i htwice =>
      have honce := (hformat.occurrences_of_ofMembers h i).1
      omega
  | missing i habsent hnone =>
      have honce := (hformat.occurrences_of_ofMembers h i).2 habsent
      omega
  | member i hmem hvalue =>
      obtain ⟨slots, hread, _⟩ := Except.bind_eq_ok_iff.1 h
      obtain ⟨value, hok⟩ := hformat.exists_read_of_foldlM hread hmem
      exact hfield i _ _ hok hvalue
  | item i hmem hvalue =>
      obtain ⟨slots, hread, _⟩ := Except.bind_eq_ok_iff.1 h
      obtain ⟨value, hok⟩ := exists_read_of_readItems hread hmem
      exact hfield i _ _ hok hvalue

theorem Lawful.refuses_flat (hformat : format.Lawful) :
    Refuses format.decode format.FaultyFlat :=
  hformat.refuses fun i => refuses_nothing (format.read i)

end RecordFormat

end Json

end WithdrawalPool
