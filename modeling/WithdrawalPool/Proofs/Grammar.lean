/-
Texts and the regular expressions that they match.  A class of characters is the list of its
members.  Whatever is spelled by so many characters of a class is told by its length and its
members alone.
-/
import Mathlib.Computability.RegularExpressions

namespace WithdrawalPool

namespace Grammar

/-- The characters, one after the other. -/
def word (chars : List Char) : RegularExpression Char := (chars.map RegularExpression.char).prod

/-- One of the characters. -/
def oneOf (chars : List Char) : RegularExpression Char := (chars.map RegularExpression.char).sum

/-- The expression, from `low` to `high` times in a row. -/
def repeated (p : RegularExpression Char) (low high : Nat) : RegularExpression Char :=
  ((List.range' low (high + 1 - low)).map fun n => p ^ n).sum

/-- The expression matches the text as a whole. -/
def Matches (p : RegularExpression Char) (text : String) : Prop := text.toList ∈ p.matches'

instance (p : RegularExpression Char) (text : String) : Decidable (Matches p text) :=
  decidable_of_iff _ (p.rmatch_iff_matches' text.toList)

variable {chars l : List Char} {p q : RegularExpression Char} {n low high : Nat}

theorem mem_mul : l ∈ (p * q).matches' ↔ ∃ a ∈ p.matches', ∃ b ∈ q.matches', a ++ b = l :=
  Language.mem_mul

theorem mem_add : l ∈ (p + q).matches' ↔ l ∈ p.matches' ∨ l ∈ q.matches' := Iff.rfl

theorem mem_char {c : Char} : l ∈ (RegularExpression.char c).matches' ↔ l = [c] := Iff.rfl

theorem mem_sum {ps : List (RegularExpression Char)} :
    l ∈ ps.sum.matches' ↔ ∃ p ∈ ps, l ∈ p.matches' := by
  induction ps with
  | nil => exact iff_of_false (Language.notMem_zero l) (by simp)
  | cons p rest ih =>
      rw [List.sum_cons, mem_add, ih]
      simp

theorem mem_word : l ∈ (word chars).matches' ↔ l = chars := by
  induction chars generalizing l with
  | nil => exact Language.mem_one l
  | cons c rest ih =>
      have hword : word (c :: rest) = RegularExpression.char c * word rest := List.prod_cons
      rw [hword, mem_mul]
      constructor
      · rintro ⟨a, ha, b, hb, rfl⟩
        rw [mem_char.1 ha, ih.1 hb]
        rfl
      · rintro rfl
        exact ⟨[c], mem_char.2 rfl, rest, ih.2 rfl, rfl⟩

theorem mem_oneOf : l ∈ (oneOf chars).matches' ↔ ∃ c ∈ chars, l = [c] := by
  rw [oneOf, mem_sum]
  simp only [List.mem_map, exists_exists_and_eq_and, mem_char]

/-- So many characters of a class are a list of that length with no others in it. -/
theorem mem_oneOf_pow :
    l ∈ (oneOf chars ^ n).matches' ↔ l.length = n ∧ ∀ c ∈ l, c ∈ chars := by
  induction n generalizing l with
  | zero =>
      rw [RegularExpression.matches'_pow, pow_zero, Language.mem_one, List.length_eq_zero_iff]
      constructor
      · rintro rfl
        exact ⟨rfl, List.forall_mem_nil _⟩
      · exact And.left
  | succ n ih =>
      have hpow : l ∈ (oneOf chars ^ (n + 1)).matches' ↔
          ∃ a ∈ (oneOf chars).matches', ∃ b ∈ (oneOf chars ^ n).matches', a ++ b = l := by
        rw [RegularExpression.matches'_pow, pow_succ', ← RegularExpression.matches'_pow]
        exact Language.mem_mul
      rw [hpow]
      constructor
      · rintro ⟨a, ha, b, hb, rfl⟩
        obtain ⟨c, hc, rfl⟩ := mem_oneOf.1 ha
        obtain ⟨hlength, hmem⟩ := ih.1 hb
        exact ⟨congrArg Nat.succ hlength, List.forall_mem_cons.2 ⟨hc, hmem⟩⟩
      · rintro ⟨hlength, hmem⟩
        obtain ⟨c, b, rfl⟩ := List.exists_cons_of_length_eq_add_one hlength
        obtain ⟨hc, hb⟩ := List.forall_mem_cons.1 hmem
        exact ⟨[c], mem_oneOf.2 ⟨c, hc, rfl⟩, b, ih.2 ⟨Nat.succ.inj hlength, hb⟩, rfl⟩

/-- Any number of characters of a class are a list with no others in it. -/
theorem mem_star_oneOf : l ∈ (oneOf chars).star.matches' ↔ ∀ c ∈ l, c ∈ chars := by
  constructor
  · intro hl c hc
    obtain ⟨parts, rfl, hparts⟩ := Language.mem_kstar.1 hl
    obtain ⟨part, hpart, hmem⟩ := List.mem_flatten.1 hc
    obtain ⟨d, hd, rfl⟩ := mem_oneOf.1 (hparts part hpart)
    exact List.mem_singleton.1 hmem ▸ hd
  · intro hl
    induction l with
    | nil => exact Language.nil_mem_kstar _
    | cons c rest ih =>
        obtain ⟨hc, hrest⟩ := List.forall_mem_cons.1 hl
        obtain ⟨parts, hflatten, hparts⟩ := Language.mem_kstar.1 (ih hrest)
        rw [hflatten]
        exact Language.join_mem_kstar (L := [c] :: parts)
          (List.forall_mem_cons.2 ⟨mem_oneOf.2 ⟨c, hc, rfl⟩, hparts⟩)

theorem mem_repeated_oneOf :
    l ∈ (repeated (oneOf chars) low high).matches' ↔
      (low ≤ l.length ∧ l.length ≤ high) ∧ ∀ c ∈ l, c ∈ chars := by
  have hrange : l.length ∈ List.range' low (high + 1 - low) ↔
      low ≤ l.length ∧ l.length ≤ high := by
    rw [List.mem_range'_1]
    omega
  rw [repeated, mem_sum, ← hrange]
  simp only [List.mem_map]
  constructor
  · rintro ⟨_, ⟨n, hn, rfl⟩, hl⟩
    obtain ⟨rfl, hmem⟩ := mem_oneOf_pow.1 hl
    exact ⟨hn, hmem⟩
  · rintro ⟨hlength, hmem⟩
    exact ⟨_, ⟨l.length, hlength, rfl⟩, mem_oneOf_pow.2 ⟨rfl, hmem⟩⟩

example : Matches (word ['x'] * repeated (oneOf ['a', 'b']) 1 2) "xba" := by decide

end Grammar

end WithdrawalPool
