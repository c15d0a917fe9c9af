/-
Natural numbers in decimal, as amounts and as numerals.  The digits of a number are read back as
the number, and they fit wherever the number does.
-/
import Mathlib.Data.List.TakeWhile
import WithdrawalPool.Amount
import WithdrawalPool.Json.Token

namespace WithdrawalPool

theorem isDigit_of_mem_toDigits {n : Nat} {c : Char} (h : c ∈ Nat.toDigits 10 n) :
    c.isDigit = true :=
  Nat.isDigit_of_mem_toDigits (by decide) (by decide) h

theorem exists_toDigits_eq_cons (n : Nat) :
    ∃ c rest, Nat.toDigits 10 n = c :: rest ∧ c.isDigit = true := by
  obtain ⟨c, rest, hchars⟩ := List.exists_cons_of_ne_nil (Nat.toDigits_ne_nil (n := n) (b := 10))
  refine ⟨c, rest, hchars, isDigit_of_mem_toDigits (n := n) ?_⟩
  rw [hchars]
  exact List.mem_cons_self

/-- No zero stands in front of the digits of a positive number. -/
theorem head?_toDigits_ne {n : Nat} (h : 0 < n) : (Nat.toDigits 10 n).head? ≠ some '0' := by
  induction n using Nat.strongRecOn with
  | ind n ih =>
      by_cases hsmall : n < 10
      · have hdigit : ∀ d < 10, 0 < d → [Nat.digitChar d].head? ≠ some '0' := by decide
        rw [Nat.toDigits_of_lt_base hsmall]
        exact hdigit n hsmall h
      · have hlarge : 10 ≤ n := Nat.le_of_not_lt hsmall
        have hshorter := ih (n / 10) (Nat.div_lt_self h (by decide))
          (Nat.div_pos hlarge (by decide))
        obtain ⟨c, rest, hchars, _⟩ := exists_toDigits_eq_cons (n / 10)
        rw [hchars] at hshorter
        rw [Nat.toDigits_of_base_le (by decide) hlarge, hchars]
        exact hshorter

theorem ne_of_isDigit {c d : Char} (hc : c.isDigit = true) (hd : d.isDigit = false) :
    c ≠ d := by
  rintro rfl
  rw [hc] at hd
  contradiction

namespace Amount

theorem toList_text (n : Nat) : (text n).toList = Nat.toDigits 10 n := Nat.toList_repr

theorem unsigned_of_isDigit {c : Char} (h : c.isDigit = true) (rest : List Char) :
    unsigned (c :: rest) = c :: rest := by
  have hne : c ≠ '+' := ne_of_isDigit h (by decide)
  unfold unsigned
  split
  next heq => exact absurd (List.cons.inj heq).1 hne
  next => rfl

/-- An amount is read back from its decimal text. -/
theorem ofText?_text (n : Nat) : ofText? (text n) = some n := by
  obtain ⟨c, rest, hchars, hc⟩ := exists_toDigits_eq_cons n
  have hdigits : ∀ d ∈ c :: rest, d.isDigit = true := by
    rw [← hchars]
    exact fun d => isDigit_of_mem_toDigits
  have hrest : rest.all isDigitOrSpacer = true := by
    apply List.all_eq_true.2
    intro d hd
    rw [isDigitOrSpacer, hdigits d (List.mem_cons_of_mem _ hd)]
    rfl
  rw [ofText?, toList_text, hchars, unsigned_of_isDigit hc]
  simp only [hc, hrest, Bool.and_self, ↓reduceIte]
  rw [List.filter_eq_self.2 hdigits, ← hchars, Nat.ofDigitChars_ten_toDigits]

end Amount

namespace Json.Numeral

/-- The numeral is read back from its spelling, from the first character to the last. -/
structure Plain (n : Numeral) : Prop where
  read : ofChars? n.spell = some n
  chars : ∀ c ∈ n.spell, isNumeralChar c = true
  starts : ∃ c rest, n.spell = c :: rest ∧ (c.isDigit || c == '-') = true

theorem spell_ofNat (n : Nat) : (ofNat n).spell = Nat.toDigits 10 n := by
  simp [spell, ofNat]

theorem ofChars?_toDigits (n : Nat) : ofChars? (Nat.toDigits 10 n) = some (ofNat n) := by
  obtain ⟨c, rest, hchars, hc⟩ := exists_toDigits_eq_cons n
  have hdigits : ∀ d ∈ Nat.toDigits 10 n, d.isDigit = true := fun d => isDigit_of_mem_toDigits
  have hsign : sign '-' (Nat.toDigits 10 n) = (false, Nat.toDigits 10 n) := by
    rw [hchars, sign, if_neg (ne_of_isDigit hc (by decide))]
  have hzero : ¬ ((Nat.toDigits 10 n).head? = some '0' ∧ (Nat.toDigits 10 n).length ≠ 1) := by
    rintro ⟨hhead, hlength⟩
    rcases Nat.eq_zero_or_pos n with rfl | hpos
    · exact hlength rfl
    · exact head?_toDigits_ne hpos hhead
  unfold ofChars?
  simp only [hsign, List.takeWhile_eq_self_iff.2 hdigits, List.dropWhile_eq_nil_iff.2 hdigits,
    Nat.toDigits_ne_nil, hzero, or_self, ↓reduceIte]
  rfl

theorem plain_ofNat (n : Nat) : (ofNat n).Plain := by
  obtain ⟨c, rest, hchars, hc⟩ := exists_toDigits_eq_cons n
  refine ⟨?_, ?_, c, rest, ?_, ?_⟩
  · rw [spell_ofNat, ofChars?_toDigits]
  · intro d hd
    rw [spell_ofNat] at hd
    rw [isNumeralChar, isDigit_of_mem_toDigits hd]
    rfl
  · rw [spell_ofNat, hchars]
  · rw [hc, Bool.true_or]

theorem natural?_ofNat (n : Nat) : (ofNat n).natural? = some n := by
  simp [natural?, ofNat]

theorem uint64?_eq_some_iff {numeral : Numeral} {n : UInt64} :
    numeral.uint64? = some n ↔ numeral.natural? = some n.toNat := by
  have hlt : n.toNat < UInt64.size := n.toNat_lt
  unfold uint64?
  cases numeral.natural? with
  | none => exact iff_of_false nofun nofun
  | some value =>
      by_cases hvalue : value < UInt64.size
      · simp only [hvalue, ↓reduceIte, Option.some.injEq, ← UInt64.toNat_inj,
          UInt64.toNat_ofNat_of_lt' hvalue]
      · simp only [hvalue, ↓reduceIte, Option.some.injEq]
        exact iff_of_false nofun fun h => hvalue (h ▸ hlt)

theorem uint64?_ofNat_toNat (n : UInt64) : (ofNat n.toNat).uint64? = some n :=
  uint64?_eq_some_iff.2 (natural?_ofNat n.toNat)

theorem le_ofDigitChars (digits : List Char) (start : Nat) :
    start ≤ Nat.ofDigitChars 10 digits start := by
  induction digits generalizing start with
  | nil => exact Nat.le_refl _
  | cons d rest ih =>
      have hrest := ih (10 * start + (d.toNat - '0'.toNat))
      rw [Nat.ofDigitChars_cons]
      omega

/-- Digits are appended as long as the number that they make fits. -/
theorem absorb_of_lt {digits : List Char} {significand : Nat}
    (h : Nat.ofDigitChars 10 digits significand < UInt64.size) :
    absorb significand digits = (Nat.ofDigitChars 10 digits significand, []) := by
  induction digits generalizing significand with
  | nil => rfl
  | cons d rest ih =>
      have hfits : Nat.ofDigitChars 10 [d] significand < UInt64.size :=
        Nat.lt_of_le_of_lt (le_ofDigitChars rest _) h
      rw [absorb, if_pos hfits]
      exact ih h

/-- A number of 64 bits is in the range of double precision. -/
theorem inDoubleRange_ofNat {n : Nat} (h : n < UInt64.size) : (ofNat n).inDoubleRange = true := by
  have habsorbed : absorb 0 (Nat.toDigits 10 n) = (n, []) := by
    rw [absorb_of_lt, Nat.ofDigitChars_ten_toDigits]
    rwa [Nat.ofDigitChars_ten_toDigits]
  have hscaled : (ofNat n).scaled = (n, 0) := by
    simp [scaled, ofNat, habsorbed, absorb]
  simp [inDoubleRange, hscaled]

end Json.Numeral

end WithdrawalPool
