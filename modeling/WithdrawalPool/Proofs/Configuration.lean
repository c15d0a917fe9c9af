/-
Configurations that are given in part.  The fields that a document gives are set, whichever they are
and in whatever order, and the others hold the values of the default configuration.  A document that
gives a field twice, or gives it what it cannot hold, is refused as a whole.
-/
import WithdrawalPool.Proofs.Json.Partial
import WithdrawalPool.Proofs.RoundTrip

namespace WithdrawalPool

namespace Json

/-- The reading is the number, spelled with digits alone. -/
def Reading.IsNumber (n : UInt64) (r : Reading) : Prop :=
  ∃ numeral : Numeral, r = .number numeral ∧ numeral.natural? = some n.toNat

theorem Decoder.uint64_eq_ok_iff {r : Reading} {n : UInt64} :
    uint64 r = .ok n ↔ r.IsNumber n := by
  cases r with
  | number numeral =>
      simp only [uint64, Reading.IsNumber, Reading.number.injEq, exists_eq_left',
        ← Numeral.uint64?_eq_some_iff]
      cases numeral.uint64? <;> simp
  | _ => simp [uint64, Reading.IsNumber]

theorem Decoder.bool_eq_ok_iff {r : Reading} {b : Bool} : bool r = .ok b ↔ r = .bool b := by
  cases r <;> simp [bool]

theorem Decoder.address_eq_ok_iff {r : Reading} {a : Address} :
    address r = .ok a ↔ r = .string (some a.text) := by
  cases r with
  | string text =>
      cases text with
      | none => exact iff_of_false nofun nofun
      | some text =>
          have hread : address (.string (some text)) =
              (Address.ofText text).mapError .address := rfl
          rw [hread, Except.mapError_eq_ok_iff, Address.ofText_eq_ok_iff, Reading.string.injEq,
            Option.some.injEq, eq_comm]
  | _ => exact iff_of_false nofun nofun

/-- Null is read as nothing, and everything else as the decoder reads it. -/
theorem Decoder.optional_eq_ok_iff {α : Type} {decoder : Decoder α}
    (hdecoder : ∀ a, decoder .null ≠ .ok a) {r : Reading} {value : Option α} :
    optional decoder r = .ok value ↔
      (value = none ∧ r = .null) ∨ ∃ a, value = some a ∧ decoder r = .ok a := by
  by_cases hnull : r = .null
  · subst hnull
    have hread : optional decoder .null = .ok none := rfl
    simp only [hread, Except.ok.injEq, hdecoder, and_false, exists_false, or_false, and_true]
    exact eq_comm
  · simp only [optional_of_ne_null hnull, Except.map_eq_ok_iff, hnull, and_false, false_or]
    exact exists_congr fun a => and_comm.trans (and_congr_left fun _ => eq_comm)

end Json

namespace Config

open Json (Decoder Document Numeral Reading RecordFormat)

/-- The value is what a document gives to the field.  A contract that is not deployed is null. -/
def Field.Holds : (i : Field) → i.Value → Reading → Prop
  | .bridgeChainId, n, r => r.IsNumber n
  | .bridgeContract, contract, r =>
    (contract = none ∧ r = .null) ∨ ∃ a : Address, contract = some a ∧ r = .string (some a.text)
  | .maxBatchElements, n, r => r.IsNumber n
  | .rejectZeroDestination, b, r => r = .bool b

/-- No value of the field is written so. -/
def Field.Inadmissible (i : Field) (r : Reading) : Prop := ∀ value, ¬ i.Holds value r

/-- The default configuration with the fields set that are given. -/
def ofGiven (given : RecordFormat.Slots Field.Value) : Config :=
  format.make fun i => (given i).getD (fieldsOf {} i)

theorem read_eq_ok_iff {i : Field} {value : i.Value} {r : Reading} :
    format.read i r = .ok value ↔ i.Holds value r := by
  cases i with
  | bridgeChainId => exact Decoder.uint64_eq_ok_iff
  | bridgeContract =>
      have hnull (a : Address) : Decoder.address .null ≠ .ok a := by
        simp [Decoder.address_eq_ok_iff]
      refine (Decoder.optional_eq_ok_iff hnull).trans (or_congr_right ?_)
      exact exists_congr fun a => and_congr_right fun _ => Decoder.address_eq_ok_iff
  | maxBatchElements => exact Decoder.uint64_eq_ok_iff
  | rejectZeroDestination => exact Decoder.bool_eq_ok_iff

/-- Every field falls back to its value in the default configuration. -/
theorem fallback_eq (i : Field) : i.fallback = fieldsOf {} i := by
  cases i <;> rfl

theorem ofText_of_conveyed {text : String} {root : Reading}
    {given : RecordFormat.Slots Field.Value} (htext : Document.ofText text = ⟨root, true⟩)
    (hroot : format.Conveys Field.Holds given root) : ofText text = .ok (ofGiven given) := by
  have hfallback (i : Field) : some i.fallback = some (fieldsOf {} i) :=
    congrArg some (fallback_eq i)
  have hread : format.decode root = .ok (ofGiven given) :=
    lawful_format.decode_conveyed (fun _ _ _ => read_eq_ok_iff.2) hfallback hfallback hroot
  rw [ofText, Decoder.run, htext, hread]
  rfl

theorem ofText_of_laidOutInPart {text : String} {v : Json}
    {given : RecordFormat.Slots Field.Value} (hv : format.LaidOutInPart given v)
    (htext : Json.Spells text.toList v.tokens) : ofText text = .ok (ofGiven given) :=
  ofText_of_conveyed (Json.ofText_of_spells (hv.plain lawful_format) htext)
    (lawful_format.conveys_of_laidOutInPart (fun _ _ _ => read_eq_ok_iff.1) hv)

/-- A document is refused as an argument, and no refusal is fatal. -/
theorem exists_reason_of_ofText {text : String} {e : PoolError} (h : ofText text = .error e) :
    (∃ reason, e = .invalidArgument (.config reason)) ∧ e.isFatal = false := by
  rw [ofText] at h
  cases hrun : Decoder.run format.decode text with
  | ok c =>
      rw [hrun] at h
      contradiction
  | error cause =>
      rw [hrun] at h
      obtain rfl := Except.error.inj h
      exact ⟨⟨_, rfl⟩, rfl⟩

theorem exists_error_of_faulty {text : String}
    (h : format.Faulty Field.Inadmissible (Document.ofText text).root) :
    ∃ e, ofText text = .error e := by
  have hrefuses : Json.Refuses format.decode (format.Faulty Field.Inadmissible) :=
    lawful_format.refuses fun i r value hread hfaulty => hfaulty value (read_eq_ok_iff.1 hread)
  obtain ⟨cause, hcause⟩ := hrefuses.run text h
  rw [ofText, hcause]
  exact ⟨_, rfl⟩

theorem inadmissible_null {i : Field} (hi : i ≠ .bridgeContract) : i.Inadmissible .null := by
  have hnumber (n : UInt64) : ¬ Reading.null.IsNumber n := by
    rintro ⟨_, hnull, _⟩
    contradiction
  cases i with
  | bridgeChainId => exact hnumber
  | bridgeContract => contradiction
  | maxBatchElements => exact hnumber
  | rejectZeroDestination =>
      intro b hb
      cases hb

theorem inadmissible_contract {text : String} {e : AddressError}
    (h : Address.ofText text = .error e) :
    Field.Inadmissible .bridgeContract (.string (some text)) := by
  rintro contract (⟨_, hnull⟩ | ⟨a, _, htext⟩)
  · contradiction
  · rw [Reading.string.injEq, Option.some.injEq] at htext
    rw [htext, Address.ofText_text] at h
    contradiction

/-- What is no number of 64 bits is inadmissible wherever one is asked for. -/
theorem inadmissible_number {numeral : Numeral}
    (h : ∀ n : UInt64, numeral.natural? ≠ some n.toNat) :
    Field.Inadmissible .bridgeChainId (.number numeral) ∧
      Field.Inadmissible .maxBatchElements (.number numeral) := by
  have hnumber (n : UInt64) : ¬ (Reading.number numeral).IsNumber n := by
    rintro ⟨other, hsame, hvalue⟩
    obtain rfl := Reading.number.inj hsame
    exact h n hvalue
  exact ⟨hnumber, hnumber⟩

/-- A document sets the fields that it gives and leaves the others as they are by default, whichever
fields it gives and however it is laid out.  One that repeats a field, or gives it what is
inadmissible, such as null, a text that is no address or a number of more than 64 bits, is refused
as an argument, and no refusal is fatal. -/
theorem given_fields_are_set_and_others_default :
    (∀ text root given, Document.ofText text = ⟨root, true⟩ →
      format.Conveys Field.Holds given root → ofText text = .ok (ofGiven given)) ∧
      (∀ text v given, format.LaidOutInPart given v → Json.Spells text.toList v.tokens →
        ofText text = .ok (ofGiven given)) ∧
      (∀ text, format.Faulty Field.Inadmissible (Document.ofText text).root →
        ∃ reason, ofText text = .error (.invalidArgument (.config reason))) ∧
      (∀ text e, ofText text = .error e →
        (∃ reason, e = .invalidArgument (.config reason)) ∧ e.isFatal = false) ∧
      (∀ i : Field, i ≠ .bridgeContract → i.Inadmissible .null) ∧
      (∀ text e, Address.ofText text = .error e →
        Field.Inadmissible .bridgeContract (.string (some text))) ∧
      ∀ numeral : Numeral, (∀ n : UInt64, numeral.natural? ≠ some n.toNat) →
        Field.Inadmissible .bridgeChainId (.number numeral) ∧
          Field.Inadmissible .maxBatchElements (.number numeral) := by
  refine ⟨fun text root given => ofText_of_conveyed, fun text v given => ofText_of_laidOutInPart,
    fun text h => ?_, fun text e => exists_reason_of_ofText, fun i => inadmissible_null,
    fun text e => inadmissible_contract, fun numeral => inadmissible_number⟩
  obtain ⟨e, he⟩ := exists_error_of_faulty h
  obtain ⟨⟨reason, rfl⟩, _⟩ := exists_reason_of_ofText he
  exact ⟨reason, he⟩

/-- The limit alone. -/
def sampleLimit : RecordFormat.Slots Field.Value
  | .maxBatchElements => some (7 : UInt64)
  | _ => none

/-- The first two fields, without a contract. -/
def sampleNetwork : RecordFormat.Slots Field.Value
  | .bridgeChainId => some (5 : UInt64)
  | .bridgeContract => some none
  | _ => none

def samplePart : Field → Json
  | .bridgeChainId => Json.uint64 5
  | .maxBatchElements => Json.uint64 7
  | _ => .null

theorem laidOut_sampleLimit : format.LaidOutInPart sampleLimit
    (.object [("note", .null), ("maxBatchElements", Json.uint64 7)]) := by
  have hpresent (i : Field) :
      (sampleLimit i).isSome = true ↔ i ∈ [Field.maxBatchElements] := by cases i <;> decide
  have hvalue : ∀ (i : Field) v, sampleLimit i = some v → samplePart i = format.write i v
    | .maxBatchElements, _, rfl => rfl
  have hothers : ∀ other ∈ [("note", Json.null)],
      (∀ i, format.name i ≠ other.1) ∧ other.2.IsScalar := by
    refine List.forall_mem_singleton.2 ⟨fun i => ?_, .null⟩
    cases i <;> decide
  exact .object (List.nodup_singleton _) hpresent hvalue hothers (List.Perm.swap _ _ _)

theorem laidOut_sampleNetwork : format.LaidOutInPart sampleNetwork
    (.array [Json.uint64 5, .null]) := by
  have hfields : [Field.bridgeChainId, .bridgeContract] ++
      [.maxBatchElements, .rejectZeroDestination] = format.fields := rfl
  have hpresent (i : Field) : (sampleNetwork i).isSome = true ↔
      i ∈ [Field.bridgeChainId, .bridgeContract] := by cases i <;> decide
  have hvalue : ∀ (i : Field) v, sampleNetwork i = some v → samplePart i = format.write i v
    | .bridgeChainId, _, rfl => rfl
    | .bridgeContract, _, rfl => rfl
  exact .array hfields hpresent hvalue

/-- An object sets the limit behind a note, an array sets the first two fields, and a limit of null
is refused. -/
theorem given_fields_are_set_and_others_default_of_sample :
    ofText (Json.object [("note", .null), ("maxBatchElements", Json.uint64 7)]).write =
        .ok { maxBatchElements := 7 } ∧
      ofText (Json.array [Json.uint64 5, .null]).write = .ok { bridgeChainId := 5 } ∧
      ∃ reason, ofText (Json.object [("maxBatchElements", .null)]).write =
        .error (.invalidArgument (.config reason)) := by
  obtain ⟨_, hlaidOut, hrefused, _, hnull, _⟩ := given_fields_are_set_and_others_default
  refine ⟨hlaidOut _ _ _ laidOut_sampleLimit (Json.spells_write _),
    hlaidOut _ _ _ laidOut_sampleNetwork (Json.spells_write _), hrefused _ ?_⟩
  rw [Json.ofText_write (.object (List.forall_mem_singleton.2 .null))]
  exact .member .maxBatchElements (List.mem_singleton.2 rfl) (hnull _ (by decide))

end Config

end WithdrawalPool
