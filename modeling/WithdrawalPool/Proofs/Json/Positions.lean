/-
Messages and the places that close them.  A place is spelled in one way only and holds five blanks,
so no place ends with another one, and exactly the place itself is taken off a message.
-/
import Mathlib.Data.List.Basic
import Mathlib.Data.List.TakeWhile
import WithdrawalPool.Json.Record

namespace WithdrawalPool

namespace Json

namespace Position

/-- Decimal digits of a number below `2 ^ 64`. -/
structure IsNumber (digits : List Char) : Prop where
  nonempty : digits ≠ []
  isDigit : ∀ c ∈ digits, c.isDigit = true
  fits : Nat.ofDigitChars 10 digits 0 < 18446744073709551616

/-- The characters name a line and a column of it. -/
def IsPlace (chars : List Char) : Prop :=
  ∃ line column, IsNumber line ∧ IsNumber column ∧
    chars = " at line ".toList ++ line ++ " column ".toList ++ column

variable {chars digits rest : List Char}

theorem afterNumber?_append (h : IsNumber digits) (hrest : rest.takeWhile Char.isDigit = []) :
    afterNumber? (digits ++ rest) = some rest := by
  have htake : (digits ++ rest).takeWhile Char.isDigit = digits := by
    rw [List.takeWhile_append_of_pos h.isDigit, hrest, List.append_nil]
  have hdrop : (digits ++ rest).dropWhile Char.isDigit = rest := by
    have hsplit := List.takeWhile_append_dropWhile (p := Char.isDigit) (l := digits ++ rest)
    rw [htake] at hsplit
    exact List.append_cancel_left hsplit
  rw [afterNumber?, htake, hdrop]
  exact if_pos ⟨h.nonempty, h.fits⟩

theorem exists_of_afterNumber?_eq_some (h : afterNumber? chars = some rest) :
    ∃ digits, IsNumber digits ∧ chars = digits ++ rest := by
  rw [afterNumber?] at h
  split at h
  next hnumber =>
    refine ⟨_, ⟨hnumber.1, fun c => List.mem_takeWhile_imp, hnumber.2⟩, ?_⟩
    rw [← Option.some.inj h, List.takeWhile_append_dropWhile]
  next => contradiction

theorem isPosition_iff : isPosition chars = true ↔ IsPlace chars := by
  rw [isPosition, beq_iff_eq]
  constructor
  · intro h
    obtain ⟨column, h, hcolumn⟩ := Option.bind_eq_some_iff.1 h
    obtain ⟨afterLine, h, hcolumnMark⟩ := Option.bind_eq_some_iff.1 h
    obtain ⟨afterMark, hlineMark, hline⟩ := Option.bind_eq_some_iff.1 h
    obtain ⟨line, hlineNumber, rfl⟩ := exists_of_afterNumber?_eq_some hline
    obtain ⟨_, hcolumnNumber, rfl⟩ := exists_of_afterNumber?_eq_some hcolumn
    refine ⟨line, _, hlineNumber, hcolumnNumber, ?_⟩
    rw [← List.isPrefixOf?_eq_some_iff_append_eq.1 hlineMark,
      ← List.isPrefixOf?_eq_some_iff_append_eq.1 hcolumnMark, List.append_nil]
    simp only [List.append_assoc]
    rfl
  · rintro ⟨line, column, hline, hcolumn, rfl⟩
    have hlineMark :
        lineMark.isPrefixOf? (" at line ".toList ++ line ++ " column ".toList ++ column) =
          some (line ++ (columnMark ++ column)) := by
      rw [List.isPrefixOf?_eq_some_iff_append_eq]
      simp only [List.append_assoc]
      rfl
    have hcolumnMark : columnMark.isPrefixOf? (columnMark ++ column) = some column :=
      List.isPrefixOf?_eq_some_iff_append_eq.2 rfl
    have hend : afterNumber? column = some [] := by
      have happend : afterNumber? (column ++ []) = some [] := afterNumber?_append hcolumn rfl
      rwa [List.append_nil] at happend
    rw [hlineMark, Option.bind_some, afterNumber?_append hline rfl, Option.bind_some, hcolumnMark,
      Option.bind_some, hend]

/-- A place holds five blanks. -/
theorem IsPlace.count (h : IsPlace chars) : chars.count ' ' = 5 := by
  obtain ⟨line, column, hline, hcolumn, rfl⟩ := h
  have hnone {digits : List Char} (hdigits : IsNumber digits) : digits.count ' ' = 0 :=
    List.count_eq_zero.2 fun hmem => absurd (hdigits.isDigit _ hmem) (by decide)
  simp only [List.count_append, hnone hline, hnone hcolumn]
  decide

theorem IsPlace.head (h : IsPlace chars) : ∃ rest, chars = ' ' :: rest := by
  obtain ⟨line, column, _, _, rfl⟩ := h
  exact ⟨_, rfl⟩

theorem isPosition_cons_append {c : Char} {kept place : List Char} (h : IsPlace place) :
    isPosition (c :: kept ++ place) = false := by
  by_contra hplace
  have hlonger := isPosition_iff.1 (eq_true_of_ne_false hplace)
  obtain ⟨rest, hhead⟩ := hlonger.head
  obtain rfl : c = ' ' := (List.cons.inj hhead).1
  -- A place that ends with a place would hold its five blanks and the one that it begins with.
  have hcount := hlonger.count
  rw [List.count_append, h.count, List.count_cons_self] at hcount
  omega

/-- The place goes, and what stands before it stays. -/
theorem dropChars_append {kept place : List Char} (h : IsPlace place) :
    dropChars (kept ++ place) = kept := by
  induction kept with
  | nil => exact dropChars_of_isPosition (isPosition_iff.2 h)
  | cons c rest ih =>
      rw [List.cons_append, dropChars, ← List.cons_append, isPosition_cons_append h, ih]
      rfl

end Position

namespace DecodeError

open Position (IsPlace dropChars)

variable {s : String} {kept place : List Char}

/-- No place begins within the words of the mark, but one may begin with the blank after them. -/
theorem dropChars_amountMark (s : String) :
    dropChars (amountMark ++ s).toList =
      "invalid amount:".toList ++ dropChars (' ' :: s.toList) := by
  rw [String.toList_append]
  rfl

theorem amountMessage?_of_dropChars (h : dropChars (' ' :: s.toList) = ' ' :: kept) :
    amountMessage? s = some ("invalid amount: " ++ String.ofList kept) := by
  have hdrop : Position.drop (amountMark ++ s) = amountMark ++ String.ofList kept := by
    have hkept : (String.ofList kept).toList = kept := String.toList_ofList
    apply String.toList_injective
    rw [Position.drop, String.toList_ofList, dropChars_amountMark, h, String.toList_append, hkept]
    rfl
  rw [amountMessage?, hdrop]
  refine if_pos (List.isPrefixOf_iff_prefix.2 ?_)
  rw [String.toList_append]
  exact List.prefix_append _ _

/-- A text that is no place and ends with none is repeated as it is. -/
theorem amountMessage?_of_no_place (h : ∀ place, IsPlace place → ¬ place <:+ ' ' :: s.toList) :
    amountMessage? s = some ("invalid amount: " ++ s) := by
  have hself : dropChars (' ' :: s.toList) = ' ' :: s.toList := by
    refine Position.dropChars_eq_self fun suffix hsuffix => ?_
    by_contra hplace
    exact h suffix (Position.isPosition_iff.1 (eq_true_of_ne_false hplace)) hsuffix
  have hmessage := amountMessage?_of_dropChars hself
  rwa [String.ofList_toList] at hmessage

theorem amountMessage?_of_append (hplace : IsPlace place) (hs : s.toList = kept ++ place) :
    amountMessage? s = some ("invalid amount: " ++ String.ofList kept) := by
  apply amountMessage?_of_dropChars
  rw [hs, ← List.cons_append, Position.dropChars_append hplace]

/-- A place that begins with the blank of the mark takes the blank along. -/
theorem amountMessage?_of_isPlace (h : IsPlace (' ' :: s.toList)) : amountMessage? s = none := by
  have hdrop : Position.drop (amountMark ++ s) = "invalid amount:" := by
    apply String.toList_injective
    rw [Position.drop, String.toList_ofList, dropChars_amountMark,
      Position.dropChars_of_isPosition (Position.isPosition_iff.2 h), List.append_nil]
  rw [amountMessage?, hdrop]
  decide

end DecodeError

end Json

end WithdrawalPool
