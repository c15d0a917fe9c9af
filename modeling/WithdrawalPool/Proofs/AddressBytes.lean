/-
What the bytes of an address keep of its text: all but the case of letters.  The digits of an
address can always be decoded, so zeros are never put in their place, and every twenty bytes are
the bytes of an address.
-/
import WithdrawalPool.Proofs.AddressForm

namespace WithdrawalPool

namespace Hex

/-- The decoder accepts pairs of digits of either case, and gives the bytes that they stand for. -/
structure Decodes (decode : String → Option (List UInt8)) : Prop where
  accepts : IsDecoder fun text => (decode text).isSome
  reads : ∀ text data, decode text = some data → data = bytes text.toList

variable {data : List UInt8}

theorem Decodes.eq_some {decode : String → Option (List UInt8)} (h : Decodes decode)
    {text : String} (heven : text.toList.length % 2 = 0)
    (hdigits : ∀ c ∈ text.toList, c ∈ alphabet) : decode text = some (bytes text.toList) := by
  have haccepted : (decode text).isSome = true := (h.accepts text).2 ⟨heven, hdigits⟩
  obtain ⟨data, hdata⟩ := Option.isSome_iff_exists.1 haccepted
  rw [hdata, h.reads text data hdata]

theorem length_digits (data : List UInt8) : (digits data).length = 2 * data.length := by
  induction data with
  | nil => rfl
  | cons byte rest ih =>
      change (digits rest).length + 2 = 2 * (rest.length + 1)
      rw [ih, Nat.mul_add_one]

/-- Bytes are written with the letters in lower case. -/
theorem mem_lower_of_mem_digits {c : Char} (h : c ∈ digits data) :
    c ∈ "0123456789abcdef".toList := by
  have hall : ∀ n < 16, Nat.digitChar n ∈ "0123456789abcdef".toList := by decide
  obtain ⟨byte, _, hc⟩ := List.mem_flatMap.1 h
  have hbyte := byte.toNat_lt
  simp only [List.mem_cons, List.not_mem_nil, or_false] at hc
  rcases hc with rfl | rfl
  · exact hall _ (by omega)
  · exact hall _ (by omega)

theorem mem_alphabet_of_mem_digits {c : Char} (h : c ∈ digits data) : c ∈ alphabet := by
  have hall : "0123456789abcdef".toList ⊆ alphabet := by decide
  exact hall (mem_lower_of_mem_digits h)

/-- Bytes are read back from their digits. -/
theorem bytes_digits (data : List UInt8) : bytes (digits data) = data := by
  induction data with
  | nil => rfl
  | cons byte rest ih =>
      have hbyte := byte.toNat_lt
      have hhigh : byte.toNat / 16 < 16 := by omega
      have hlow : byte.toNat % 16 < 16 := by omega
      change UInt8.ofNat (16 * value (byte.toNat / 16).digitChar +
        value (byte.toNat % 16).digitChar) :: bytes (digits rest) = byte :: rest
      rw [value_digitChar hhigh, value_digitChar hlow, Nat.div_add_mod, UInt8.ofNat_toNat, ih]

end Hex

namespace Address

theorem text_eq (a : Address) : a.text = "0x" ++ String.ofList a.digits := by
  have hdigits : (String.ofList a.digits).toList = a.digits := String.toList_ofList
  rw [← String.toList_inj, String.toList_append, hdigits]
  exact a.toList_text

/-- What follows the mark is decoded to the bytes of the address. -/
theorem decode_digits {decode : String → Option (List UInt8)} (h : Hex.Decodes decode)
    (a : Address) : (Text.dropBytes? 2 a.text).bind decode = some a.bytes := by
  have hcut : Text.dropBytes? 2 a.text = some (String.ofList a.digits) := by
    rw [text_eq]
    exact Text.dropBytes?_append "0x" _
  have heven : (String.ofList a.digits).toList.length % 2 = 0 := by
    rw [String.toList_ofList, length_digits]
  have hdigits : ∀ c ∈ (String.ofList a.digits).toList, c ∈ Hex.alphabet := by
    rw [String.toList_ofList]
    exact fun c hc => Hex.isDigit_iff.1 (isDigit_of_mem_digits hc)
  rw [hcut, Option.bind_some, h.eq_some heven hdigits, String.toList_ofList]
  rfl

/-- Twenty bytes are the bytes of an address, which spells them in lower case. -/
theorem exists_bytes_eq {data : List UInt8} (h : data.length = 20) :
    ∃ a : Address, a.text = "0x" ++ String.ofList (Hex.digits data) ∧ a.bytes = data := by
  have hform : WellFormed ("0x" ++ String.ofList (Hex.digits data)) := by
    rw [wellFormed_append_iff, String.toList_ofList, Hex.length_digits, h]
    exact ⟨rfl, fun c => Hex.mem_alphabet_of_mem_digits⟩
  refine ⟨⟨_, hform⟩, rfl, ?_⟩
  have hdigits : digits ⟨_, hform⟩ = Hex.digits data := by
    have hlist : (String.ofList (Hex.digits data)).toList = Hex.digits data := String.toList_ofList
    rw [digits, String.toList_append, hlist]
    rfl
  rw [bytes, hdigits, Hex.bytes_digits]

theorem isZero_iff_text {a : Address} :
    a.isZero = true ↔ a.text = "0x0000000000000000000000000000000000000000" := by
  rw [isZero_iff]
  constructor
  · rintro rfl
    rfl
  · exact fun htext => ext htext

/-- Whatever decoder of digits is used, it has the bytes of every address, twenty of them.  Two
addresses have the same bytes exactly if their texts are the same in lower case.  Every twenty bytes
belong to an address, among others to the one that spells them in lower case, and no address but
the one of forty zeros counts as zero. -/
theorem bytes_are_the_text_up_to_case :
    (∀ decode, Hex.Decodes decode → ∀ a : Address,
      (Text.dropBytes? 2 a.text).bind decode = some a.bytes ∧ a.bytes.length = 20) ∧
      (∀ a b : Address, a.bytes = b.bytes ↔ a.text.toLower = b.text.toLower) ∧
      (∀ data : List UInt8, data.length = 20 →
        (∀ c ∈ Hex.digits data, c ∈ "0123456789abcdef".toList) ∧
          ∃ a : Address, a.text = "0x" ++ String.ofList (Hex.digits data) ∧ a.bytes = data) ∧
      ∀ a : Address,
        a.isZero = true ↔ a.text = "0x0000000000000000000000000000000000000000" :=
  ⟨fun _ hdecode a => ⟨decode_digits hdecode a, length_bytes a⟩, fun _ _ => bytes_eq_iff,
    fun _ hlength => ⟨fun _ => Hex.mem_lower_of_mem_digits, exists_bytes_eq hlength⟩,
    fun _ => isZero_iff_text⟩

/-- Pairs of digits, put together two by two. -/
def sampleReader (text : String) : Option (List UInt8) :=
  if sampleDecoder text then some (Hex.bytes text.toList) else none

theorem decodes_sample : Hex.Decodes sampleReader where
  accepts text := by
    have hread : (sampleReader text).isSome = sampleDecoder text := by
      rw [sampleReader]
      cases sampleDecoder text <;> rfl
    change (sampleReader text).isSome = true ↔ _
    rw [hread]
    exact isDecoder_sample text
  reads text data hdata := by
    rw [sampleReader, Option.ite_none_right_eq_some] at hdata
    exact (Option.some.inj hdata.2).symm

/-- The digits of the zero address are decoded, not made up, and the bytes from 236 to 255 belong to
an address in lower case. -/
theorem bytes_are_the_text_up_to_case_of_sample :
    (Text.dropBytes? 2 zero.text).bind sampleReader = some (List.replicate 20 0) ∧
      ∃ a : Address, a.text = "0xecedeeeff0f1f2f3f4f5f6f7f8f9fafbfcfdfeff" ∧
        a.bytes = (List.range' 236 20).map UInt8.ofNat ∧
        (Text.dropBytes? 2 a.text).bind sampleReader =
          some ((List.range' 236 20).map UInt8.ofNat) := by
  obtain ⟨hdecoded, _, hwritten, _⟩ := bytes_are_the_text_up_to_case
  obtain ⟨_, a, htext, hbytes⟩ := hwritten ((List.range' 236 20).map UInt8.ofNat) (by decide)
  refine ⟨?_, a, ?_, hbytes, ?_⟩
  · rw [(hdecoded _ decodes_sample zero).1, bytes_zero]
  · rw [htext]
    decide
  · rw [(hdecoded _ decodes_sample a).1, hbytes]

end Address

end WithdrawalPool
