/-
Addresses and the bytes that they stand for.  A digit is written in either case, so two addresses
stand for the same bytes exactly if their texts differ in the case of letters at most.
-/
import WithdrawalPool.Address

namespace WithdrawalPool

namespace Hex

/-- The digits, with the letters among them in either case. -/
def alphabet : List Char := "0123456789abcdefABCDEF".toList

theorem isDigit_iff {c : Char} : isDigit c = true ↔ c ∈ alphabet :=
  Text.iff_mem_of_ascii (by decide) (by decide) fun _ => toNat_le_of_isDigit

theorem value_lt {c : Char} (h : isDigit c = true) : value c < 16 := by
  have hall : alphabet.all (fun c => value c < 16) = true := by decide
  exact of_decide_eq_true (List.all_eq_true.1 hall c (isDigit_iff.1 h))

/-- The case of a digit is all that its value does not tell. -/
theorem value_eq_iff {c d : Char} (hc : isDigit c = true) (hd : isDigit d = true) :
    value c = value d ↔ c.toLower = d.toLower := by
  have hall : alphabet.all (fun c =>
      alphabet.all fun d => value c = value d ↔ c.toLower = d.toLower) = true := by decide
  have hdigit := List.all_eq_true.1 hall c (isDigit_iff.1 hc)
  exact of_decide_eq_true (List.all_eq_true.1 hdigit d (isDigit_iff.1 hd))

theorem eq_zero_of_toLower {c : Char} (h : isDigit c = true) (hlower : c.toLower = '0') :
    c = '0' := by
  have hall : alphabet.all (fun c => c.toLower = '0' → c = '0') = true := by decide
  exact of_decide_eq_true (List.all_eq_true.1 hall c (isDigit_iff.1 h)) hlower

theorem ofNat_pair_eq_iff {high low high' low' : Nat} (hhigh : high < 16) (hlow : low < 16)
    (hhigh' : high' < 16) (hlow' : low' < 16) :
    UInt8.ofNat (16 * high + low) = UInt8.ofNat (16 * high' + low') ↔
      high = high' ∧ low = low' := by
  rw [← UInt8.toNat_inj, UInt8.toNat_ofNat', UInt8.toNat_ofNat']
  omega

/-- Pairs of digits stand for the same bytes exactly if only the case of letters tells them
apart. -/
theorem bytes_eq_iff {left right : List Char} (hleft : ∀ c ∈ left, isDigit c = true)
    (hright : ∀ c ∈ right, isDigit c = true) (hlength : left.length = right.length)
    (heven : left.length % 2 = 0) :
    bytes left = bytes right ↔ left.map Char.toLower = right.map Char.toLower := by
  induction left using bytes.induct generalizing right with
  | case1 high low rest ih =>
      rcases right with _ | ⟨high', _ | ⟨low', rest'⟩⟩
      · simp only [List.length_cons, List.length_nil] at hlength
        omega
      · simp only [List.length_cons, List.length_nil] at hlength
        omega
      · simp only [List.forall_mem_cons] at hleft hright
        obtain ⟨hhigh, hlow, hrest⟩ := hleft
        obtain ⟨hhigh', hlow', hrest'⟩ := hright
        simp only [List.length_cons] at hlength heven
        have ih := ih hrest hrest' (by omega) (by omega)
        simp only [bytes, List.map_cons, List.cons.injEq]
        rw [ofNat_pair_eq_iff (value_lt hhigh) (value_lt hlow) (value_lt hhigh')
          (value_lt hlow'), value_eq_iff hhigh hhigh', value_eq_iff hlow hlow', ih, and_assoc]
  | case2 left hshort =>
      rcases left with _ | ⟨high, _ | ⟨low, rest⟩⟩
      · obtain rfl : right = [] := List.eq_nil_of_length_eq_zero hlength.symm
        exact iff_of_true rfl rfl
      · simp only [List.length_cons, List.length_nil] at heven
        omega
      · exact absurd rfl (hshort high low rest)

end Hex

namespace Address

theorem toList_text (a : Address) : a.text.toList = '0' :: 'x' :: a.digits := by
  have hsplit := List.take_append_drop 2 a.text.toList
  rw [a.wellFormed.1] at hsplit
  exact hsplit.symm

theorem isDigit_of_mem_digits {a : Address} {c : Char} (hc : c ∈ a.digits) :
    Hex.isDigit c = true :=
  List.all_eq_true.1 a.wellFormed.2.2 c hc

theorem length_digits (a : Address) : a.digits.length = 40 := a.wellFormed.2.1

theorem bytes_eq_iff_digits {a b : Address} :
    a.bytes = b.bytes ↔ a.digits.map Char.toLower = b.digits.map Char.toLower :=
  Hex.bytes_eq_iff (fun _ => isDigit_of_mem_digits) (fun _ => isDigit_of_mem_digits)
    (by rw [length_digits, length_digits]) (by rw [length_digits])

/-- Addresses with the same bytes have the same text up to the case of letters. -/
theorem bytes_eq_iff {a b : Address} : a.bytes = b.bytes ↔ a.text.toLower = b.text.toLower := by
  have hlower (text : String) : text.toLower.toList = text.toList.map Char.toLower :=
    String.toList_map
  rw [bytes_eq_iff_digits, ← String.toList_inj, hlower, hlower, toList_text, toList_text]
  simp

theorem isZero_iff_bytes {a : Address} : a.isZero = true ↔ a.bytes = List.replicate 20 0 := by
  have hall : a.isZero = true ↔ ∀ byte ∈ a.bytes, byte = 0 := by simp [isZero]
  rw [hall, List.eq_replicate_iff, and_iff_right (length_bytes a)]

theorem bytes_zero : zero.bytes = List.replicate 20 0 := by decide

/-- Zero has one spelling: no other digit than `0` stands for it in either case. -/
theorem isZero_iff {a : Address} : a.isZero = true ↔ a = zero := by
  rw [isZero_iff_bytes, ← bytes_zero]
  refine ⟨fun hbytes => ?_, congrArg bytes⟩
  have hlower : zero.digits.map Char.toLower = List.replicate a.digits.length '0' := by
    rw [length_digits]
    decide
  have hdigits := bytes_eq_iff_digits.1 hbytes
  rw [hlower, List.map_eq_replicate_iff] at hdigits
  have hzeros : a.digits = List.replicate 40 '0' :=
    List.eq_replicate_iff.2 ⟨length_digits a, fun c hc =>
      Hex.eq_zero_of_toLower (isDigit_of_mem_digits hc) (hdigits c hc)⟩
  apply ext
  rw [← String.toList_inj, toList_text, hzeros]
  decide

end Address

end WithdrawalPool
