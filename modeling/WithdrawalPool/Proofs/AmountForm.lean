/-
The texts that are amounts.  Many texts spell one amount: they differ in a sign, in underscores and
in zeros in front.  What is left without those is the digits of the number and tells it, and one
text without any of them is written.
-/
import Mathlib.Data.Nat.Digits.Defs
import WithdrawalPool.Proofs.Grammar
import WithdrawalPool.Proofs.Json.Codecs
import WithdrawalPool.Proofs.Json.Positions

namespace WithdrawalPool

open Grammar (Matches)
open Json.Position (IsPlace)

namespace Amount

def digits : List Char := "0123456789".toList

/-- A plus sign or none, a digit, then digits and underscores. -/
def grammar : RegularExpression Char :=
  (1 + .char '+') * Grammar.oneOf digits * (Grammar.oneOf ('_' :: digits)).star

/-- A zero, or digits of which the first is none. -/
def plainGrammar : RegularExpression Char :=
  .char '0' + Grammar.oneOf "123456789".toList * (Grammar.oneOf digits).star

def digitValue (c : Char) : Nat := c.toNat - '0'.toNat

/-- The number that digits make in decimal, the last one of them counting ones. -/
def decimal (l : List Char) : Nat := Nat.ofDigits 10 (l.reverse.map digitValue)

/-- The characters of a text without its sign, its underscores and the zeros in front. -/
def significant (s : String) : List Char :=
  ((unsigned s.toList).filter (· ≠ '_')).dropWhile (· = '0')

/-- What a reader makes of a text where an amount is expected. -/
def decode (s : String) : Except Json.DecodeError Nat := Json.Decoder.amount (.string (some s))

variable {s t : String} {l k : List Char} {n : Nat}

theorem isDigit_iff {c : Char} : c.isDigit = true ↔ c ∈ digits :=
  Text.iff_mem_of_ascii (p := Char.isDigit) (by decide) (by decide) fun _ h =>
    Nat.le_trans (of_decide_eq_true (Bool.and_eq_true_iff.1 h).2) (by decide)

theorem isDigitOrSpacer_iff {c : Char} : isDigitOrSpacer c = true ↔ c ∈ '_' :: digits := by
  rw [isDigitOrSpacer, Bool.or_eq_true, beq_iff_eq, isDigit_iff, List.mem_cons, or_comm]

theorem mem_sign : l ∈ (1 + RegularExpression.char '+').matches' ↔ l = [] ∨ l = ['+'] := by
  rw [Grammar.mem_add, Grammar.mem_char]
  exact or_congr_left (Language.mem_one l)

theorem exists_sign_append (l : List Char) :
    ∃ sign ∈ (1 + RegularExpression.char '+').matches', sign ++ unsigned l = l := by
  unfold unsigned
  split
  · exact ⟨['+'], mem_sign.2 (Or.inr rfl), rfl⟩
  · exact ⟨[], mem_sign.2 (Or.inl rfl), rfl⟩

theorem matches_grammar_iff : Matches grammar s ↔
    ∃ c rest, unsigned s.toList = c :: rest ∧ c.isDigit = true ∧
      rest.all isDigitOrSpacer = true := by
  have hall {rest : List Char} :
      rest.all isDigitOrSpacer = true ↔ ∀ c ∈ rest, c ∈ '_' :: digits := by
    rw [List.all_eq_true]
    exact forall₂_congr fun c _ => isDigitOrSpacer_iff
  rw [Matches, grammar, Grammar.mem_mul]
  constructor
  · rintro ⟨front, hfront, rest, hrest, hs⟩
    obtain ⟨sign, hsign, first, hfirst, rfl⟩ := Grammar.mem_mul.1 hfront
    obtain ⟨c, hc, rfl⟩ := Grammar.mem_oneOf.1 hfirst
    have hdigit := isDigit_iff.2 hc
    refine ⟨c, rest, ?_, hdigit, hall.2 (Grammar.mem_star_oneOf.1 hrest)⟩
    rcases mem_sign.1 hsign with rfl | rfl
    · rw [← hs]
      exact unsigned_of_isDigit hdigit rest
    · rw [← hs]
      rfl
  · rintro ⟨c, rest, hs, hdigit, hrest⟩
    obtain ⟨sign, hsign, htext⟩ := exists_sign_append s.toList
    have hfirst := Grammar.mem_oneOf.2 ⟨c, isDigit_iff.1 hdigit, rfl⟩
    have htail := Grammar.mem_star_oneOf.2 (hall.1 hrest)
    refine ⟨sign ++ [c], Grammar.mem_mul.2 ⟨sign, hsign, [c], hfirst, rfl⟩, rest, htail, ?_⟩
    rw [← htext, hs, List.append_assoc]
    rfl

theorem decimal_cons (c : Char) (l : List Char) :
    decimal (c :: l) = 10 ^ l.length * digitValue c + decimal l := by
  rw [decimal, List.reverse_cons, List.map_append, Nat.ofDigits_append, List.length_map,
    List.length_reverse, List.map_singleton, Nat.ofDigits_singleton, Nat.add_comm]
  rfl

/-- Digits taken in one after the other make the number that their places give them. -/
theorem ofDigitChars_eq_decimal (l : List Char) : Nat.ofDigitChars 10 l 0 = decimal l := by
  induction l with
  | nil => rfl
  | cons c rest ih =>
      rw [Nat.ofDigitChars_cons, Nat.ofDigitChars_eq_ofDigitChars_zero, ih, decimal_cons,
        Nat.mul_zero, Nat.zero_add]
      rfl

theorem filter_isDigit_unsigned (l : List Char) :
    (unsigned l).filter Char.isDigit = l.filter Char.isDigit := by
  obtain ⟨sign, hsign, htext⟩ := exists_sign_append l
  have hnone : sign.filter Char.isDigit = [] := by
    rcases mem_sign.1 hsign with rfl | rfl <;> rfl
  have hfilter := congrArg (List.filter Char.isDigit) htext
  rwa [List.filter_append, hnone, List.nil_append] at hfilter

theorem ofText?_of_matches (h : Matches grammar s) :
    ofText? s = some (decimal (s.toList.filter Char.isDigit)) := by
  obtain ⟨c, rest, hs, hdigit, hrest⟩ := matches_grammar_iff.1 h
  rw [ofText?, ← filter_isDigit_unsigned, hs]
  simp only [hdigit, hrest, Bool.and_self, ↓reduceIte, ofDigitChars_eq_decimal]

theorem ofText?_of_not_matches (h : ¬ Matches grammar s) : ofText? s = none := by
  rw [ofText?]
  split
  next => rfl
  next c rest hs =>
    apply if_neg
    rw [Bool.and_eq_true]
    exact fun haccepted => h (matches_grammar_iff.2 ⟨c, rest, hs, haccepted⟩)

theorem decode_eq (s : String) :
    decode s = match ofText? s with
      | some n => .ok n
      | none => .error (.amount s) := rfl

theorem decode_of_matches (h : Matches grammar s) :
    decode s = .ok (decimal (s.toList.filter Char.isDigit)) := by
  rw [decode_eq, ofText?_of_matches h]

theorem decode_of_not_matches (h : ¬ Matches grammar s) : decode s = .error (.amount s) := by
  rw [decode_eq, ofText?_of_not_matches h]

theorem decode_eq_ok_iff : decode s = .ok n ↔
    Matches grammar s ∧ decimal (s.toList.filter Char.isDigit) = n := by
  by_cases h : Matches grammar s
  · rw [decode_of_matches h, Except.ok.injEq, and_iff_right h]
  · rw [decode_of_not_matches h]
    exact iff_of_false nofun fun haccepted => h haccepted.1

theorem digitValue_lt {c : Char} (h : c.isDigit = true) : digitValue c < 10 := by
  have hall : digits.all (digitValue · < 10) = true := by decide
  exact of_decide_eq_true (List.all_eq_true.1 hall c (isDigit_iff.1 h))

theorem digitChar_digitValue {c : Char} (h : c.isDigit = true) :
    Nat.digitChar (digitValue c) = c := by
  have hall : digits.all (fun c => Nat.digitChar (digitValue c) == c) = true := by decide
  exact eq_of_beq (List.all_eq_true.1 hall c (isDigit_iff.1 h))

/-- Digits are told by the number that they make, as long as no zero stands in front. -/
theorem digits_decimal (hdigits : ∀ c ∈ l, c.isDigit = true) (hhead : l.head? ≠ some '0') :
    (Nat.digits 10 (decimal l)).reverse.map Nat.digitChar = l := by
  have hplaces : Nat.digits 10 (decimal l) = l.reverse.map digitValue := by
    apply Nat.digits_ofDigits 10 (by decide)
    · intro d hd
      obtain ⟨c, hc, rfl⟩ := List.mem_map.1 hd
      exact digitValue_lt (hdigits c (List.mem_reverse.1 hc))
    · -- The last place is the one of the first digit.
      intro hne hzero
      have hnonempty : l ≠ [] := by simpa using hne
      rw [List.getLast_map, List.getLast_reverse] at hzero
      have hfirst := digitChar_digitValue (hdigits _ (List.head_mem hnonempty))
      rw [hzero] at hfirst
      rw [List.head?_eq_some_head hnonempty, ← hfirst] at hhead
      exact hhead rfl
  have hchars : l.map (Nat.digitChar ∘ digitValue) = l.map id :=
    List.map_congr_left fun c hc => digitChar_digitValue (hdigits c hc)
  rw [hplaces, ← List.map_reverse, List.reverse_reverse, List.map_map, hchars, List.map_id]

theorem eq_of_decimal_eq (hl : ∀ c ∈ l, c.isDigit = true) (hl0 : l.head? ≠ some '0')
    (hk : ∀ c ∈ k, c.isDigit = true) (hk0 : k.head? ≠ some '0') (h : decimal l = decimal k) :
    l = k := by
  rw [← digits_decimal hl hl0, h, digits_decimal hk hk0]

theorem decimal_dropWhile (l : List Char) : decimal (l.dropWhile (· = '0')) = decimal l := by
  induction l with
  | nil => rfl
  | cons c rest ih =>
      by_cases hzero : c = '0'
      · have hvalue : decimal (c :: rest) = decimal rest := by
          rw [decimal_cons, hzero]
          exact Nat.zero_add _
        rw [List.dropWhile_cons, if_pos (decide_eq_true hzero), ih, hvalue]
      · rw [List.dropWhile_cons, if_neg (mt of_decide_eq_true hzero)]

/-- Less its sign and its underscores, an accepted text is its digits. -/
theorem filter_unsigned_of_matches (h : Matches grammar s) :
    (unsigned s.toList).filter (· ≠ '_') = s.toList.filter Char.isDigit := by
  obtain ⟨c, rest, hs, hdigit, hrest⟩ := matches_grammar_iff.1 h
  have hclass : ∀ d ∈ unsigned s.toList, d.isDigit = true ∨ d = '_' := by
    rw [hs]
    refine List.forall_mem_cons.2 ⟨Or.inl hdigit, fun d hd => ?_⟩
    have hd' := List.all_eq_true.1 hrest d hd
    rwa [isDigitOrSpacer, Bool.or_eq_true, beq_iff_eq] at hd'
  rw [← filter_isDigit_unsigned]
  apply List.filter_congr
  intro d hd
  rcases hclass d hd with hdigit | rfl
  · rw [hdigit]
    exact decide_eq_true (ne_of_isDigit hdigit (by decide))
  · rfl

theorem significant_of_matches (h : Matches grammar s) :
    significant s = (s.toList.filter Char.isDigit).dropWhile (· = '0') := by
  rw [significant, filter_unsigned_of_matches h]

theorem decimal_significant (h : Matches grammar s) :
    decimal (significant s) = decimal (s.toList.filter Char.isDigit) := by
  rw [significant_of_matches h, decimal_dropWhile]

theorem isDigit_of_mem_significant (h : Matches grammar s) :
    ∀ c ∈ significant s, c.isDigit = true := by
  intro c hc
  rw [significant_of_matches h] at hc
  exact (List.mem_filter.1 ((List.dropWhile_sublist _).subset hc)).2

theorem head?_significant_ne (s : String) : (significant s).head? ≠ some '0' := by
  intro hhead
  have hnot := List.head?_dropWhile_not (fun c : Char => decide (c = '0'))
    ((unsigned s.toList).filter (· ≠ '_'))
  rw [significant] at hhead
  rw [hhead] at hnot
  exact absurd hnot (by decide)

/-- Texts spell one amount exactly if no more than the sign, underscores and zeros in front
distinguish them. -/
theorem decode_eq_iff (hs : Matches grammar s) (ht : Matches grammar t) :
    decode s = decode t ↔ significant s = significant t := by
  rw [decode_of_matches hs, decode_of_matches ht, Except.ok.injEq, ← decimal_significant hs,
    ← decimal_significant ht]
  constructor
  · exact eq_of_decimal_eq (isDigit_of_mem_significant hs) (head?_significant_ne s)
      (isDigit_of_mem_significant ht) (head?_significant_ne t)
  · exact congrArg decimal

theorem matches_plainGrammar_iff : Matches plainGrammar s ↔
    s.toList ≠ [] ∧ (∀ c ∈ s.toList, c.isDigit = true) ∧
      (s.toList.head? = some '0' → s.toList = ['0']) := by
  rw [Matches, plainGrammar, Grammar.mem_add, Grammar.mem_char, Grammar.mem_mul]
  constructor
  · rintro (hs | ⟨first, hfirst, rest, hrest, hs⟩)
    · rw [hs]
      exact ⟨nofun, List.forall_mem_singleton.2 rfl, fun _ => rfl⟩
    · obtain ⟨c, hc, rfl⟩ := Grammar.mem_oneOf.1 hfirst
      have hdigit : c.isDigit = true := isDigit_iff.2 (List.mem_cons_of_mem '0' hc)
      have hrest' : ∀ d ∈ rest, d.isDigit = true := fun d hd =>
        isDigit_iff.2 (Grammar.mem_star_oneOf.1 hrest d hd)
      rw [← hs]
      refine ⟨nofun, List.forall_mem_cons.2 ⟨hdigit, hrest'⟩, fun hhead => ?_⟩
      rw [Option.some.inj hhead] at hc
      exact absurd hc (by decide)
  · rintro ⟨hne, hdigits, hzero⟩
    obtain ⟨c, rest, hs⟩ := List.exists_cons_of_ne_nil hne
    rw [hs] at hdigits hzero ⊢
    obtain ⟨hc, hrest⟩ := List.forall_mem_cons.1 hdigits
    have hdigit : c ∈ '0' :: "123456789".toList := isDigit_iff.1 hc
    rcases List.mem_cons.1 hdigit with rfl | hpositive
    · exact Or.inl (hzero rfl)
    · exact Or.inr ⟨[c], Grammar.mem_oneOf.2 ⟨c, hpositive, rfl⟩, rest,
        Grammar.mem_star_oneOf.2 fun d hd => isDigit_iff.1 (hrest d hd), rfl⟩

theorem matches_of_plain (h : Matches plainGrammar s) : Matches grammar s := by
  obtain ⟨hne, hdigits, _⟩ := matches_plainGrammar_iff.1 h
  obtain ⟨c, rest, hs⟩ := List.exists_cons_of_ne_nil hne
  rw [hs] at hdigits
  obtain ⟨hc, hrest⟩ := List.forall_mem_cons.1 hdigits
  refine matches_grammar_iff.2 ⟨c, rest, ?_, hc, ?_⟩
  · rw [hs, unsigned_of_isDigit hc]
  · apply List.all_eq_true.2
    intro d hd
    rw [isDigitOrSpacer, hrest d hd, Bool.true_or]

theorem toList_of_plain (h : Matches plainGrammar s) :
    s.toList = if significant s = [] then ['0'] else significant s := by
  obtain ⟨hne, hdigits, hzero⟩ := matches_plainGrammar_iff.1 h
  obtain ⟨c, rest, hs⟩ := List.exists_cons_of_ne_nil hne
  rw [significant_of_matches (matches_of_plain h), List.filter_eq_self.2 hdigits, hs]
  rw [hs] at hzero
  by_cases hc : c = '0'
  · rw [hzero (congrArg some hc)]
    rfl
  · rw [List.dropWhile_cons, if_neg (mt of_decide_eq_true hc), if_neg (List.cons_ne_nil c rest)]

theorem plain_text (n : Nat) : Matches plainGrammar (text n) := by
  rw [matches_plainGrammar_iff, toList_text]
  refine ⟨Nat.toDigits_ne_nil, fun c => isDigit_of_mem_toDigits, fun hhead => ?_⟩
  rcases Nat.eq_zero_or_pos n with rfl | hpos
  · rfl
  · exact absurd hhead (head?_toDigits_ne hpos)

theorem decode_text (n : Nat) : decode (text n) = .ok n := Json.roundTrips_amount.decode n

/-- One text without a sign, underscores or zeros in front spells an amount. -/
theorem text_eq_iff : text n = s ↔ Matches plainGrammar s ∧ decode s = .ok n := by
  constructor
  · rintro rfl
    exact ⟨plain_text n, decode_text n⟩
  · rintro ⟨hplain, hvalue⟩
    have hsame : significant (text n) = significant s := by
      refine (decode_eq_iff (matches_of_plain (plain_text n)) (matches_of_plain hplain)).1 ?_
      rw [decode_text, hvalue]
    apply String.toList_injective
    rw [toList_of_plain (plain_text n), toList_of_plain hplain, hsame]

/-- A document that is no more than a text is read as the text. -/
theorem run_of_ofText {document : String}
    (h : Json.Document.ofText document = ⟨.string (some s), true⟩) :
    Json.Decoder.run Json.Decoder.amount document = decode s := by
  rw [Json.Decoder.run, h, ← decode]
  cases decode s <;> rfl

/-- Exactly the texts of the grammar are amounts, and they stand for the decimal value of their
digits.  The words for any other text repeat it, but lose a place that it ends with; a place that
begins with the blank after their mark leaves no such words.  An amount is written as the one text
that has no sign, no underscore and no zero in front, and is read back from it.  Texts that differ
in these only stand for one amount, and no others do. -/
theorem texts_stand_for_amounts (s t : String) (n : Nat) :
    ((∀ document, Json.Document.ofText document = ⟨.string (some s), true⟩ →
        Json.Decoder.run Json.Decoder.amount document = decode s) ∧
      Json.Document.ofText (Json.string s).write = ⟨.string (some s), true⟩) ∧
      (decode s = .ok n ↔ Matches grammar s ∧ decimal (s.toList.filter Char.isDigit) = n) ∧
      (¬ Matches grammar s → ∃ e, decode s = .error e ∧
        ((∀ place, IsPlace place → ¬ place <:+ ' ' :: s.toList) →
          e.message? = some ("invalid amount: " ++ s)) ∧
        (∀ kept place, IsPlace place → s.toList = kept ++ place →
          e.message? = some ("invalid amount: " ++ String.ofList kept)) ∧
        (IsPlace (' ' :: s.toList) → e.message? = none)) ∧
      (Json.amount n = .string s ↔ Matches plainGrammar s ∧ decode s = .ok n) ∧
      Json.Decoder.run Json.Decoder.amount (Json.amount n).write = .ok n ∧
      (Matches grammar s → Matches grammar t →
        (decode s = decode t ↔ significant s = significant t)) := by
  have hwritten : Json.amount n = .string s ↔ text n = s := by
    rw [Json.amount, Json.string.injEq]
  refine ⟨⟨fun _ => run_of_ofText, Json.ofText_write (.string s)⟩, decode_eq_ok_iff, ?_,
    hwritten.trans text_eq_iff, Json.roundTrips_amount.run n, decode_eq_iff⟩
  intro hrefused
  exact ⟨.amount s, decode_of_not_matches hrefused, Json.DecodeError.amountMessage?_of_no_place,
    fun _ _ => Json.DecodeError.amountMessage?_of_append,
    Json.DecodeError.amountMessage?_of_isPlace⟩

/-- Seven, with a sign, an underscore and zeros in front, and an underscore that no digit comes
before, closed by a place. -/
theorem texts_stand_for_amounts_of_sample :
    (Matches grammar "+00_7" ∧ Matches grammar "7" ∧ decode "+00_7" = decode "7") ∧
      (Matches plainGrammar "7" ∧ Json.amount 7 = .string "7") ∧
      ¬ Matches grammar "_7 at line 0 column 0" ∧
        ∃ e, decode "_7 at line 0 column 0" = .error e ∧
          e.message? = some "invalid amount: _7" := by
  have hsigned : Matches grammar "+00_7" := by decide
  have hplain : Matches plainGrammar "7" := by decide
  have hseven : decode "7" = .ok 7 := by decide
  have hrefused : ¬ Matches grammar "_7 at line 0 column 0" := by decide
  have hzero : Json.Position.IsNumber ['0'] :=
    ⟨nofun, List.forall_mem_singleton.2 rfl, by decide⟩
  have hplace : IsPlace " at line 0 column 0".toList := ⟨['0'], ['0'], hzero, hzero, rfl⟩
  obtain ⟨_, _, _, hwritten, _, hsame⟩ := texts_stand_for_amounts "7" "+00_7" 7
  obtain ⟨_, _, hmessage, _⟩ := texts_stand_for_amounts "_7 at line 0 column 0" "" 0
  obtain ⟨e, he, _, hkept, _⟩ := hmessage hrefused
  have hspelled : Matches grammar "7" := matches_of_plain hplain
  exact ⟨⟨hsigned, hspelled, ((hsame hspelled hsigned).2 rfl).symm⟩,
    ⟨hplain, hwritten.2 ⟨hplain, hseven⟩⟩, hrefused, e, he, hkept ['_', '7'] _ hplace rfl⟩

/-- The words for a text are not the mark and the text, if the text ends like a place. -/
theorem message_loses_place :
    ∃ s e, ¬ Matches grammar s ∧
      Json.Decoder.run Coin.format.decode
        (Json.object [("denom", .string "u"), ("amount", .string s)]).write = .error e ∧
      e.message? ≠ some ("invalid amount: " ++ s) := by
  refine ⟨"x at line 0 column 0", .amount "x at line 0 column 0", by decide, ?_, by decide⟩
  decide +kernel

end Amount

end WithdrawalPool
