/-
The texts that are addresses, and why the others are not.  A text is judged by its bytes and cut at
the second of them, and no cut falls inside a character.  Whoever reads an address accepts the same
texts: the reader itself, documents, and the check of destinations.
-/
import WithdrawalPool.Destination
import WithdrawalPool.Proofs.Addresses
import WithdrawalPool.Proofs.Grammar
import WithdrawalPool.Proofs.Json.Codecs

namespace WithdrawalPool

namespace Text

/-- What follows the first bytes of a text, unless they end inside a character. -/
def dropBytes? (n : Nat) (text : String) : Option String :=
  if h : String.Pos.Raw.IsValid text ⟨n⟩ then some (text.sliceFrom ⟨⟨n⟩, h⟩).copy else none

theorem dropBytes?_append (left right : String) :
    dropBytes? left.utf8ByteSize (left ++ right) = some right := by
  have hvalid : String.Pos.Raw.IsValid (left ++ right) ⟨left.utf8ByteSize⟩ :=
    String.Pos.Raw.isValid_iff_exists_append.2 ⟨left, right, rfl, rfl⟩
  have hsplits := String.Pos.splits (⟨_, hvalid⟩ : (left ++ right).Pos)
  rw [dropBytes?, dif_pos hvalid, hsplits.eq_right ⟨rfl, rfl⟩]

example : dropBytes? 2 "äb" = some "b" ∧ dropBytes? 1 "äb" = none := by decide +kernel

end Text

/-- The decoder accepts digits of either case, an even number of them, and nothing else. -/
def Hex.IsDecoder (accepts : String → Bool) : Prop :=
  ∀ text, accepts text = true ↔ text.toList.length % 2 = 0 ∧ ∀ c ∈ text.toList, c ∈ Hex.alphabet

/-- A policy that accepts the zero address refuses texts for their form alone. -/
theorem DestinationPolicy.check_of_accepting (text : String) :
    (DestinationPolicy.mk false).check text =
      ((Address.ofText text).map fun _ => ()).mapError AddressError.message := by
  rw [check]
  cases Address.ofText text <;> rfl

namespace Address

open Grammar (Matches)

/-- `0x` and forty digits, the letters among them in either case. -/
def grammar : RegularExpression Char :=
  Grammar.word "0x".toList * Grammar.oneOf Hex.alphabet ^ 40

variable {text : String}

theorem matches_grammar_iff : Matches grammar text ↔ WellFormed text := by
  rw [Matches, grammar, Grammar.mem_mul]
  constructor
  · rintro ⟨mark, hmark, digits, hdigits, htext⟩
    obtain rfl := Grammar.mem_word.1 hmark
    obtain ⟨hlength, hmem⟩ := Grammar.mem_oneOf_pow.1 hdigits
    rw [WellFormed, ← htext]
    exact ⟨rfl, hlength, List.all_eq_true.2 fun c hc => Hex.isDigit_iff.2 (hmem c hc)⟩
  · rintro ⟨hmark, hlength, hdigits⟩
    refine ⟨text.toList.take 2, Grammar.mem_word.2 hmark, text.toList.drop 2,
      Grammar.mem_oneOf_pow.2 ⟨hlength, fun c hc => ?_⟩, List.take_append_drop 2 text.toList⟩
    exact Hex.isDigit_iff.1 (List.all_eq_true.1 hdigits c hc)

/-- What there is to say of a text that is read as an address. -/
inductive Verdict (text : String) : Except AddressError Address → Prop
  | empty (hempty : text = "") : Verdict text (.error .empty)
  | wrongLength (hne : text.utf8ByteSize ≠ 0) (hsize : text.utf8ByteSize ≠ textLength) :
      Verdict text (.error (.wrongLength text textLength text.utf8ByteSize))
  | invalidFormat (hsize : text.utf8ByteSize = textLength) (hform : ¬ WellFormed text) :
      Verdict text (.error (.invalidFormat text))
  | address (hform : WellFormed text) : Verdict text (.ok ⟨text, hform⟩)

theorem verdict (text : String) : Verdict text (ofText text) := by
  unfold ofText
  split
  next hempty => exact .empty hempty
  next hne =>
    split
    next hsize => exact .wrongLength (mt String.utf8ByteSize_eq_zero_iff.1 hne) hsize
    next hsize =>
      split
      next hform => exact .address hform
      next hform => exact .invalidFormat (not_not.1 hsize) hform

theorem ne_empty (hsize : text.utf8ByteSize = textLength) : text ≠ "" := by
  rintro rfl
  contradiction

theorem Verdict.ofText_eq {result : Except AddressError Address} (h : Verdict text result) :
    ofText text = result := by
  cases h with
  | empty hempty => rw [ofText, if_pos hempty]
  | wrongLength hne hsize =>
      rw [ofText, if_neg (mt String.utf8ByteSize_eq_zero_iff.2 hne), if_pos hsize]
  | invalidFormat hsize hform =>
      rw [ofText, if_neg (ne_empty hsize), if_neg (not_not.2 hsize), dif_neg hform]
  | address hform => exact ofText_eq_ok_iff.2 rfl

/-- Judges a text as `ofText` does, but looks at the mark alone before it cuts it off, and leaves
what follows to a decoder of digits.  There is no verdict if the cut falls inside a character. -/
def checkBytes (acceptsHex : String → Bool) (text : String) : Option (Except AddressError Unit) :=
  if text = "" then some (.error .empty)
  else if text.utf8ByteSize ≠ textLength then
    some (.error (.wrongLength text textLength text.utf8ByteSize))
  else if "0x".toList <+: text.toList then
    (Text.dropBytes? 2 text).map fun digits =>
      if acceptsHex digits then .ok () else .error (.invalidFormat text)
  else some (.error (.invalidFormat text))

theorem wellFormed_append_iff {digits : String} :
    WellFormed ("0x" ++ digits) ↔
      digits.toList.length = 40 ∧ ∀ c ∈ digits.toList, c ∈ Hex.alphabet := by
  rw [← matches_grammar_iff, Matches, grammar, Grammar.mem_mul, String.toList_append]
  constructor
  · rintro ⟨mark, hmark, rest, hrest, htext⟩
    obtain rfl := Grammar.mem_word.1 hmark
    rw [← List.append_cancel_left htext]
    exact Grammar.mem_oneOf_pow.1 hrest
  · intro hdigits
    exact ⟨_, Grammar.mem_word.2 rfl, _, Grammar.mem_oneOf_pow.2 hdigits, rfl⟩

section

variable {acceptsHex : String → Bool}

/-- Behind the mark there is room for forty digits, so that no odd one can be left over. -/
theorem acceptsHex_iff (h : Hex.IsDecoder acceptsHex) {digits : String}
    (hsize : ("0x" ++ digits).utf8ByteSize = textLength) :
    acceptsHex digits = true ↔ WellFormed ("0x" ++ digits) := by
  have hdigits : digits.utf8ByteSize = 40 := by
    rw [String.utf8ByteSize_append] at hsize
    exact Nat.add_left_cancel hsize
  rw [h, wellFormed_append_iff]
  constructor
  · rintro ⟨_, hmem⟩
    have hascii : ∀ c ∈ digits.toList, c.toNat ≤ 127 := fun c hc =>
      Hex.toNat_le_of_isDigit (Hex.isDigit_iff.2 (hmem c hc))
    exact ⟨(Text.utf8ByteSize_eq_length hascii).symm.trans hdigits, hmem⟩
  · rintro ⟨hlength, hmem⟩
    exact ⟨by rw [hlength], hmem⟩

theorem checkBytes_of_mark {digits : String}
    (hsize : ("0x" ++ digits).utf8ByteSize = textLength) :
    checkBytes acceptsHex ("0x" ++ digits) =
      some (if acceptsHex digits then .ok () else .error (.invalidFormat ("0x" ++ digits))) := by
  have hmark : "0x".toList <+: ("0x" ++ digits).toList := Text.isPrefix_iff.2 ⟨digits, rfl⟩
  have hcut : Text.dropBytes? 2 ("0x" ++ digits) = some digits := Text.dropBytes?_append "0x" digits
  rw [checkBytes, if_neg (ne_empty hsize), if_neg (not_not.2 hsize), if_pos hmark, hcut]
  rfl

/-- The verdict does not depend on where a text is cut, and every cut is between characters. -/
theorem checkBytes_eq (h : Hex.IsDecoder acceptsHex) (text : String) :
    checkBytes acceptsHex text = some ((ofText text).map fun _ => ()) := by
  have hverdict := verdict text
  generalize ofText text = result at hverdict ⊢
  cases hverdict with
  | empty hempty =>
      rw [checkBytes, if_pos hempty]
      rfl
  | wrongLength hne hsize =>
      rw [checkBytes, if_neg (mt String.utf8ByteSize_eq_zero_iff.2 hne), if_pos hsize]
      rfl
  | invalidFormat hsize hform =>
      by_cases hmark : "0x".toList <+: text.toList
      · obtain ⟨digits, rfl⟩ := Text.isPrefix_iff.1 hmark
        rw [checkBytes_of_mark hsize, if_neg (mt (acceptsHex_iff h hsize).1 hform)]
        rfl
      · rw [checkBytes, if_neg (ne_empty hsize), if_neg (not_not.2 hsize), if_neg hmark]
        rfl
  | address hform =>
      have hmark : "0x".toList <+: text.toList := by
        have hprefix := List.take_prefix 2 text.toList
        rwa [hform.1] at hprefix
      obtain ⟨digits, rfl⟩ := Text.isPrefix_iff.1 hmark
      have hsize := hform.utf8ByteSize_eq
      rw [checkBytes_of_mark hsize, if_pos ((acceptsHex_iff h hsize).2 hform)]
      rfl

end

theorem ofText_eq_empty_iff : ofText text = .error .empty ↔ text = "" := by
  constructor
  · intro h
    have hverdict := verdict text
    rw [h] at hverdict
    cases hverdict with
    | empty hempty => exact hempty
  · intro hempty
    exact (Verdict.empty hempty).ofText_eq

theorem ofText_eq_wrongLength_iff {other : String} {expected actual : Nat} :
    ofText text = .error (.wrongLength other expected actual) ↔
      (text.utf8ByteSize ≠ 0 ∧ text.utf8ByteSize ≠ textLength) ∧
        other = text ∧ expected = textLength ∧ actual = text.utf8ByteSize := by
  constructor
  · intro h
    have hverdict := verdict text
    rw [h] at hverdict
    cases hverdict with
    | wrongLength hne hsize => exact ⟨⟨hne, hsize⟩, rfl, rfl, rfl⟩
  · rintro ⟨⟨hne, hsize⟩, rfl, rfl, rfl⟩
    exact (Verdict.wrongLength hne hsize).ofText_eq

theorem ofText_eq_invalidFormat_iff {other : String} :
    ofText text = .error (.invalidFormat other) ↔
      (text.utf8ByteSize = textLength ∧ ¬ WellFormed text) ∧ other = text := by
  constructor
  · intro h
    have hverdict := verdict text
    rw [h] at hverdict
    cases hverdict with
    | invalidFormat hsize hform => exact ⟨⟨hsize, hform⟩, rfl⟩
  · rintro ⟨⟨hsize, hform⟩, rfl⟩
    exact (Verdict.invalidFormat hsize hform).ofText_eq

theorem exists_ofText_eq_ok_iff : (∃ a, ofText text = .ok a) ↔ WellFormed text := by
  constructor
  · rintro ⟨a, ha⟩
    rw [← ofText_eq_ok_iff.1 ha]
    exact a.wellFormed
  · intro hform
    exact ⟨_, (Verdict.address hform).ofText_eq⟩

/-- Behind a document that is a text, addresses are read as from the text itself. -/
theorem run_address {document : String}
    (h : Json.Document.ofText document = ⟨.string (some text), true⟩) :
    Json.Decoder.address.run document = (ofText text).mapError .address := by
  have hread : Json.Decoder.address.run document =
      (ofText text).mapError .address >>= fun a => pure a := by
    rw [Json.Decoder.run, h]
    rfl
  rw [hread, bind_pure]

/-- The addresses are the texts of their grammar, each with its text as it was written.  Any other
text is refused: for being empty, for its length in bytes, or, if it has forty-two of them, for its
form.  The check that cuts off the mark and leaves the digits to a decoder comes to the same verdict
and never cuts a character.  Documents that are texts, and destinations where the zero address is
accepted, are judged as the texts are. -/
theorem addresses_are_their_grammar :
    (∀ text, (∃ a, ofText text = .ok a) ↔ Matches grammar text) ∧
      (∀ text a, ofText text = .ok a → a.text = text) ∧
      (∀ text, ofText text = .error .empty ↔ text = "") ∧
      (∀ text other expected actual, ofText text = .error (.wrongLength other expected actual) ↔
        (text.utf8ByteSize ≠ 0 ∧ text.utf8ByteSize ≠ 42) ∧
          other = text ∧ expected = 42 ∧ actual = text.utf8ByteSize) ∧
      (∀ text other, ofText text = .error (.invalidFormat other) ↔
        (text.utf8ByteSize = 42 ∧ ¬ Matches grammar text) ∧ other = text) ∧
      (∀ acceptsHex, Hex.IsDecoder acceptsHex →
        ∀ text, checkBytes acceptsHex text = some ((ofText text).map fun _ => ())) ∧
      (∀ document text, Json.Document.ofText document = ⟨.string (some text), true⟩ →
        Json.Decoder.address.run document = (ofText text).mapError .address) ∧
      (∀ text, Json.Document.ofText (Json.string text).write = ⟨.string (some text), true⟩) ∧
      ∀ text, (DestinationPolicy.mk false).check text =
        ((ofText text).map fun _ => ()).mapError AddressError.message := by
  refine ⟨fun text => exists_ofText_eq_ok_iff.trans matches_grammar_iff.symm,
    fun text a => ofText_eq_ok_iff.1, fun text => ofText_eq_empty_iff,
    fun text other expected actual => ofText_eq_wrongLength_iff, fun text other => ?_,
    fun acceptsHex h text => checkBytes_eq h text, fun document text => run_address,
    fun text => Json.ofText_write (.string text), DestinationPolicy.check_of_accepting⟩
  rw [matches_grammar_iff]
  exact ofText_eq_invalidFormat_iff

/-- Digits in pairs, looked at one by one. -/
def sampleDecoder (text : String) : Bool :=
  text.toList.length % 2 == 0 && text.toList.all Hex.isDigit

theorem isDecoder_sample : Hex.IsDecoder sampleDecoder := by
  intro text
  simp [sampleDecoder, Hex.isDigit_iff]

/-- The address of a contract in mixed case is read from a document.  Neither the mark in upper
case nor a character of three bytes behind a short mark passes. -/
theorem addresses_are_their_grammar_of_sample :
    (∃ a, ofText "0x742d35Cc6634C0532925a3b844Bc9e7595f2bD08" = .ok a ∧
      a.text = "0x742d35Cc6634C0532925a3b844Bc9e7595f2bD08" ∧
      Json.Decoder.address.run
        (Json.string "0x742d35Cc6634C0532925a3b844Bc9e7595f2bD08").write = .ok a) ∧
      checkBytes sampleDecoder "0X742d35Cc6634C0532925a3b844Bc9e7595f2bD08" =
        some (.error (.invalidFormat "0X742d35Cc6634C0532925a3b844Bc9e7595f2bD08")) ∧
      checkBytes sampleDecoder "0€2d35Cc6634C0532925a3b844Bc9e7595f2bD08" =
        some (.error (.invalidFormat "0€2d35Cc6634C0532925a3b844Bc9e7595f2bD08")) := by
  obtain ⟨haccepted, htext, _, _, _, hcut, hdocument, hwritten, _⟩ := addresses_are_their_grammar
  refine ⟨?_, ?_, ?_⟩
  · have hform : WellFormed "0x742d35Cc6634C0532925a3b844Bc9e7595f2bD08" := by decide
    obtain ⟨a, ha⟩ := (haccepted _).2 (matches_grammar_iff.2 hform)
    refine ⟨a, ha, htext _ a ha, ?_⟩
    rw [hdocument _ _ (hwritten _), ha]
    rfl
  · rw [hcut _ isDecoder_sample]
    decide +kernel
  · rw [hcut _ isDecoder_sample]
    decide +kernel

end Address

end WithdrawalPool
