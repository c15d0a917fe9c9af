/-
What a scan makes of a text that spells tokens.  Every token is read back from its spelling, and
blanks before and after it leave no trace.
-/
import Mathlib.Data.List.Chain
import Mathlib.Data.List.Forall2
import WithdrawalPool.Proofs.Json.Numerals

namespace WithdrawalPool

namespace Hex

theorem isDigit_digitChar {n : Nat} (h : n < 16) : isDigit n.digitChar = true := by
  have hall : ∀ m < 16, isDigit (Nat.digitChar m) = true := by decide
  exact hall n h

theorem value_digitChar {n : Nat} (h : n < 16) : value n.digitChar = n := by
  have hall : ∀ m < 16, value (Nat.digitChar m) = m := by decide
  exact hall n h

end Hex

namespace Json

/-- The part of a string says which character it is, by itself. -/
inductive Piece.StandsFor : Piece → Char → Prop
  | char (c : Char) : StandsFor (.char c) c
  | unit {c : Char} (h : c.toNat < 0xD800) : StandsFor (.unit c.toNat) c

theorem joinPieces_unit {code : Nat} (h : code < 0xD800) (rest : List Piece) :
    joinPieces (.unit code :: rest) = (joinPieces rest).map (Char.ofNat code :: ·) := by
  have hhigh : isHighSurrogate code = false := by simp [isHighSurrogate, h]
  have hlow : isLowSurrogate code = false := by
    have hlt : code < 0xDC00 := Nat.lt_trans h (by decide)
    simp [isLowSurrogate, hlt]
  cases rest with
  | nil => simp [joinPieces, hhigh, hlow]
  | cons piece rest => cases piece <;> simp [joinPieces, hhigh, hlow]

theorem joinPieces_of_standsFor {pieces : List Piece} {chars : List Char}
    (h : List.Forall₂ Piece.StandsFor pieces chars) : joinPieces pieces = some chars := by
  induction h with
  | nil => rfl
  | cons hpiece _ ih =>
      cases hpiece with
      | char => simp [joinPieces, ih]
      | unit hlt => simp [joinPieces_unit hlt, ih]

theorem scanFrom_shortEscape {letter c : Char} (hletter : letter ≠ 'u')
    (h : shortEscape? letter = some c) (pieces : List Piece) (rest : List Char) :
    scanFrom (.string pieces) ('\\' :: letter :: rest) =
      scanFrom (.string (.char c :: pieces)) rest := by
  have hmark : Scan.step (.string pieces) '\\' = (.escape pieces, []) := rfl
  have hstep : Scan.step (.escape pieces) letter = (.string (.char c :: pieces), []) := by
    simp only [Scan.step, if_neg hletter, h]
  simp only [scanFrom, hmark, hstep, List.nil_append]

/-- Two digits spell the number of a control character. -/
theorem scanFrom_unit {code : Nat} (h : code < 0x20) (pieces : List Piece) (rest : List Char) :
    scanFrom (.string pieces)
        (['\\', 'u', '0', '0', (code / 16).digitChar, (code % 16).digitChar] ++ rest) =
      scanFrom (.string (.unit code :: pieces)) rest := by
  have hhigh : code / 16 < 16 := by omega
  have hlow : code % 16 < 16 := by omega
  have hcode : 16 * (code / 16) + code % 16 = code := Nat.div_add_mod code 16
  have hzero : Hex.isDigit '0' = true := by decide
  have hnothing : Hex.value '0' = 0 := by decide
  simp [scanFrom, Scan.step, Hex.isDigit_digitChar hhigh, Hex.isDigit_digitChar hlow,
    Hex.value_digitChar hhigh, Hex.value_digitChar hlow, hzero, hnothing, hcode, Nat.add_comm]

/-- A scan makes one part of the characters that a character of a string is written with. -/
theorem scanFrom_escape (c : Char) :
    ∃ piece, Piece.StandsFor piece c ∧ ∀ pieces rest,
      scanFrom (.string pieces) (escape c ++ rest) = scanFrom (.string (piece :: pieces)) rest := by
  have hshort {letter : Char} (hletter : letter ≠ 'u') (h : shortEscape? letter = some c) :
      ∃ piece, Piece.StandsFor piece c ∧ ∀ pieces rest,
        scanFrom (.string pieces) (['\\', letter] ++ rest) =
          scanFrom (.string (piece :: pieces)) rest :=
    ⟨.char c, .char c, scanFrom_shortEscape hletter h⟩
  unfold escape
  split_ifs with hquote hbackslash hbackspace htab hnewline hfeed hreturn hcontrol
  · exact hshort (by decide) (by rw [hquote]; rfl)
  · exact hshort (by decide) (by rw [hbackslash]; rfl)
  · exact hshort (by decide) (by rw [hbackspace]; rfl)
  · exact hshort (by decide) (by rw [htab]; rfl)
  · exact hshort (by decide) (by rw [hnewline]; rfl)
  · exact hshort (by decide) (by rw [hfeed]; rfl)
  · exact hshort (by decide) (by rw [hreturn]; rfl)
  · have hlow : c.toNat < 0xD800 := Nat.lt_trans hcontrol (by decide)
    exact ⟨.unit c.toNat, .unit hlow, scanFrom_unit hcontrol⟩
  · refine ⟨.char c, .char c, fun pieces rest => ?_⟩
    simp [scanFrom, Scan.step, hquote, hbackslash, hcontrol]

theorem scanFrom_escapes (chars : List Char) :
    ∃ pieces, List.Forall₂ Piece.StandsFor pieces chars ∧ ∀ before rest,
      scanFrom (.string before) (chars.flatMap escape ++ rest) =
        scanFrom (.string (pieces.reverse ++ before)) rest := by
  induction chars with
  | nil => exact ⟨[], .nil, fun _ _ => rfl⟩
  | cons c chars ih =>
      obtain ⟨piece, hpiece, hscan⟩ := scanFrom_escape c
      obtain ⟨pieces, hpieces, hrest⟩ := ih
      refine ⟨piece :: pieces, .cons hpiece hpieces, fun before rest => ?_⟩
      rw [List.flatMap_cons, List.append_assoc, hscan, hrest, List.reverse_cons,
        List.append_assoc]
      rfl

theorem scanFrom_string (text : String) (rest : List Char) :
    scanFrom .between ((Token.string (some text)).spell ++ rest) =
      some (.string (some text)) :: scanFrom .between rest := by
  obtain ⟨pieces, hpieces, hscan⟩ := scanFrom_escapes text.toList
  have hopen : Scan.step .between '"' = (.string [], []) := by rfl
  have hclose : Scan.step (.string pieces.reverse) '"' =
      (.between, [some (.string (some text))]) := by
    simp [Scan.step, Scan.endString, joinPieces_of_standsFor hpieces]
  rw [Token.spell, List.append_assoc, List.cons_append, scanFrom, hopen, List.nil_append, hscan,
    List.append_nil, List.singleton_append, scanFrom, hclose, List.singleton_append]

/-- No word and no numeral goes on with the first of the characters. -/
def Delimits (chars : List Char) : Prop :=
  ∀ c ∈ chars.head?, c.isAlpha = false ∧ isNumeralChar c = false

theorem scanFrom_endWord (letters : List Char) {rest : List Char} (h : Delimits rest) :
    scanFrom (.word letters) rest = Scan.endWord letters :: scanFrom .between rest := by
  cases rest with
  | nil => rfl
  | cons c rest =>
      have hc := (h c rfl).1
      simp [scanFrom, Scan.step, hc]

theorem scanFrom_endNumeral (chars : List Char) {rest : List Char} (h : Delimits rest) :
    scanFrom (.numeral chars) rest = Scan.endNumeral chars :: scanFrom .between rest := by
  cases rest with
  | nil => rfl
  | cons c rest =>
      have hc := (h c rfl).2
      simp [scanFrom, Scan.step, hc]

theorem scanFrom_numeralChars {chars : List Char} (h : ∀ c ∈ chars, isNumeralChar c = true)
    (before rest : List Char) :
    scanFrom (.numeral before) (chars ++ rest) =
      scanFrom (.numeral (chars.reverse ++ before)) rest := by
  induction chars generalizing before with
  | nil => rfl
  | cons c chars ih =>
      have hc : isNumeralChar c = true := h c List.mem_cons_self
      have hstep : Scan.step (.numeral before) c = (.numeral (c :: before), []) := by
        simp [Scan.step, hc]
      rw [List.cons_append, scanFrom, hstep, List.nil_append,
        ih (fun d hd => h d (List.mem_cons_of_mem _ hd)), List.reverse_cons, List.append_assoc]
      rfl

theorem Scan.start_numeral {c : Char} (h : (c.isDigit || c == '-') = true) :
    Scan.start c = (.numeral [c], []) := by
  have hquote : c ≠ '"' := by
    rintro rfl
    exact absurd h (by decide)
  have hblank : isBlank c = false := by
    rcases Bool.or_eq_true_iff.1 h with hdigit | hminus
    · simp [isBlank, ne_of_isDigit hdigit]
    · obtain rfl : c = '-' := eq_of_beq hminus
      rfl
  simp [Scan.start, hquote, hblank, h]

theorem scanFrom_number {n : Numeral} (hn : n.Plain) {rest : List Char} (h : Delimits rest) :
    scanFrom .between ((Token.number n).spell ++ rest) =
      some (.number n) :: scanFrom .between rest := by
  obtain ⟨c, chars, hchars, hc⟩ := hn.starts
  have hspell : (Token.number n).spell = c :: chars := hchars
  have hrest : ∀ d ∈ chars, isNumeralChar d = true := fun d hd =>
    hn.chars d (hchars ▸ List.mem_cons_of_mem _ hd)
  have hend : Scan.endNumeral (chars.reverse ++ [c]) = some (.number n) := by
    rw [Scan.endNumeral, List.reverse_append, List.reverse_reverse, List.reverse_singleton,
      List.singleton_append, ← hchars, hn.read]
    rfl
  rw [hspell, List.cons_append, scanFrom, Scan.step, Scan.start_numeral hc, List.nil_append,
    scanFrom_numeralChars hrest, scanFrom_endNumeral _ h, hend]

namespace Token

/-- The spelling of the token can be read back.  That of every token can but for some numerals. -/
def Plain : Token → Prop
  | number n => n.Plain
  | _ => True

/-- The end of the token shows only by what comes next. -/
def isOpenEnded : Token → Bool
  | null | bool _ | number _ => true
  | _ => false

/-- The token is a character of its own that ends the one before it. -/
def isMark : Token → Bool
  | openArray | closeArray | openObject | closeObject | comma | colon => true
  | _ => false

end Token

/-- A token is read back from its spelling, if what follows it shows its end. -/
theorem scanFrom_spell {t : Token} (ht : t.Plain) {rest : List Char}
    (h : t.isOpenEnded = true → Delimits rest) :
    scanFrom .between (t.spell ++ rest) = some t :: scanFrom .between rest := by
  cases t with
  | openArray => rfl
  | closeArray => rfl
  | openObject => rfl
  | closeObject => rfl
  | comma => rfl
  | colon => rfl
  | null => exact scanFrom_endWord ['l', 'l', 'u', 'n'] (h rfl)
  | bool value =>
      cases value with
      | true => exact scanFrom_endWord ['e', 'u', 'r', 't'] (h rfl)
      | false => exact scanFrom_endWord ['e', 's', 'l', 'a', 'f'] (h rfl)
  | number n => exact scanFrom_number ht (h rfl)
  | string text =>
      cases text with
      | some text => exact scanFrom_string text rest
      | none => rfl

/-- The characters spell the tokens, with any blanks before and after each of them. -/
inductive Spells : List Char → List Token → Prop
  | done : Spells [] []
  | blank {c : Char} {chars : List Char} {ts : List Token} (hc : isBlank c = true)
      (h : Spells chars ts) : Spells (c :: chars) ts
  | token {chars : List Char} {ts : List Token} (t : Token) (h : Spells chars ts) :
      Spells (t.spell ++ chars) (t :: ts)

/-- A token whose end does not show by itself comes last or before a mark. -/
def Separated (ts : List Token) : Prop :=
  ts.IsChain fun t u => t.isOpenEnded = true → u.isMark = true

theorem delimits_of_isBlank {c : Char} (h : isBlank c = true) (rest : List Char) :
    Delimits (c :: rest) := by
  rintro d ⟨⟩
  simp only [isBlank, Bool.or_eq_true, beq_iff_eq] at h
  rcases h with ((rfl | rfl) | rfl) | rfl <;> decide

theorem Token.exists_spell_eq_of_isMark {t : Token} (h : t.isMark = true) :
    ∃ c, t.spell = [c] ∧ c.isAlpha = false ∧ isNumeralChar c = false := by
  cases t with
  | openArray => exact ⟨'[', rfl, by decide⟩
  | closeArray => exact ⟨']', rfl, by decide⟩
  | openObject => exact ⟨'\x7b', rfl, by decide⟩
  | closeObject => exact ⟨'\x7d', rfl, by decide⟩
  | comma => exact ⟨',', rfl, by decide⟩
  | colon => exact ⟨':', rfl, by decide⟩
  | null => contradiction
  | bool => contradiction
  | number => contradiction
  | string => contradiction

theorem Spells.delimits {chars : List Char} {ts : List Token} (h : Spells chars ts)
    (hmark : ∀ t ∈ ts.head?, t.isMark = true) : Delimits chars := by
  cases h with
  | done =>
      intro c hc
      contradiction
  | blank hc => exact delimits_of_isBlank hc _
  | token t h =>
      obtain ⟨c, hspell, hc⟩ := Token.exists_spell_eq_of_isMark (hmark t rfl)
      rw [hspell]
      rintro d ⟨⟩
      exact hc

/-- Spelled tokens are read back, wherever there are blanks between them. -/
theorem Spells.scanFrom {chars : List Char} {ts : List Token} (h : Spells chars ts)
    (hplain : ∀ t ∈ ts, t.Plain) (hseparated : Separated ts) :
    Json.scanFrom .between chars = ts.map some := by
  induction h with
  | done => rfl
  | @blank c chars ts hc h ih =>
      have hstep : Scan.step .between c = (.between, []) := by
        simp [Scan.step, Scan.start, hc]
      rw [Json.scanFrom, hstep]
      exact ih hplain hseparated
  | @token chars ts t h ih =>
      obtain ⟨hnext, hrest⟩ := List.isChain_cons.1 hseparated
      have hdelimits : t.isOpenEnded = true → Delimits chars := fun hopen =>
        h.delimits fun u hu => hnext u hu hopen
      rw [scanFrom_spell (hplain t List.mem_cons_self) hdelimits, List.map_cons,
        ih (fun u hu => hplain u (List.mem_cons_of_mem _ hu)) hrest]

theorem spells_flatMap_spell (ts : List Token) : Spells (ts.flatMap Token.spell) ts := by
  induction ts with
  | nil => exact .done
  | cons t ts ih => exact .token t ih

end Json

end WithdrawalPool
