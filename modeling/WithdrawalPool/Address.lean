/-
Addresses on the remote chain: `0x` and forty hexadecimal digits, the case of each digit kept as
it was written.  Addresses are ordered and compared by their text; `bytes` forgets the case.
-/
import WithdrawalPool.Hex
import WithdrawalPool.Text

namespace WithdrawalPool

/-- Why a text is not an address. -/
inductive AddressError where
  | empty
  | wrongLength (address : String) (expected actual : Nat)
  | invalidFormat (address : String)
deriving DecidableEq, Repr

def AddressError.message : AddressError → String
  | .empty => "Address is empty"
  | .wrongLength address expected actual =>
    s!"Address {address} has wrong length: expected {expected}, actual {actual}"
  | .invalidFormat address => s!"Address {address} is not 0x followed by 40 hex digits"

namespace Address

/-- The number of bytes in the text of an address. -/
def textLength : Nat := 42

/-- The grammar of addresses: `0x`, then forty hexadecimal digits of either case. -/
def WellFormed (text : String) : Prop :=
  text.toList.take 2 = ['0', 'x'] ∧ (text.toList.drop 2).length = 40 ∧
    (text.toList.drop 2).all Hex.isDigit = true

instance (text : String) : Decidable (WellFormed text) :=
  inferInstanceAs (Decidable (_ ∧ _ ∧ _))

end Address

/-- An address on the remote chain. -/
structure Address where
  text : String
  wellFormed : Address.WellFormed text
deriving DecidableEq

namespace Address

@[ext] theorem ext {a b : Address} (h : a.text = b.text) : a = b := by
  cases a
  cases b
  cases h
  rfl

instance : ToString Address := ⟨text⟩

/-- Reads an address.  The length is that of the UTF-8 text, and is judged before the digits. -/
def ofText (text : String) : Except AddressError Address :=
  if text = "" then .error .empty
  else if text.utf8ByteSize ≠ textLength then
    .error (.wrongLength text textLength text.utf8ByteSize)
  else if h : WellFormed text then .ok ⟨text, h⟩
  else .error (.invalidFormat text)

instance : Ord Address := ⟨compareOn text⟩

instance : Std.TransOrd Address := inferInstanceAs (Std.TransCmp (compareOn text))

instance : Std.LawfulEqOrd Address where
  compare_self {a} := show compare a.text a.text = .eq from Std.ReflCmp.compare_self
  eq_of_compare {a b} h :=
    ext (Std.LawfulEqCmp.eq_of_compare (show compare a.text b.text = .eq from h))

/-- The forty digits of an address. -/
def digits (a : Address) : List Char := a.text.toList.drop 2

/-- The twenty bytes that the digits stand for. -/
def bytes (a : Address) : List UInt8 := Hex.bytes a.digits

theorem length_bytes (a : Address) : a.bytes.length = 20 := by
  rw [bytes, Hex.length_bytes, digits, a.wellFormed.2.1]

/-- The address of twenty zero bytes. -/
def zero : Address := ⟨"0x0000000000000000000000000000000000000000", by decide⟩

instance : Inhabited Address := ⟨zero⟩

def isZero (a : Address) : Bool := a.bytes.all (· == 0)

theorem WellFormed.utf8ByteSize_eq {text : String} (h : WellFormed text) :
    text.utf8ByteSize = textLength := by
  obtain ⟨hmark, hlength, hdigits⟩ := h
  have hsplit : text.toList = ['0', 'x'] ++ text.toList.drop 2 := by
    rw [← hmark, List.take_append_drop]
  rw [Text.utf8ByteSize_eq_length]
  · rw [hsplit, List.length_append, hlength]
    rfl
  · intro c hc
    rw [hsplit, List.mem_append] at hc
    rcases hc with hc | hc
    · simp only [List.mem_cons, List.not_mem_nil, or_false] at hc
      rcases hc with rfl | rfl <;> decide
    · exact Hex.toNat_le_of_isDigit (List.all_eq_true.1 hdigits c hc)

theorem ofText_eq_ok_iff {text : String} {a : Address} : ofText text = .ok a ↔ a.text = text := by
  constructor
  · intro h
    simp only [ofText] at h
    split at h
    · cases h
    split at h
    · cases h
    split at h
    · cases h
      rfl
    · cases h
  · rintro rfl
    have hsize := a.wellFormed.utf8ByteSize_eq
    have hne : a.text ≠ "" := by
      intro he
      simp [he, textLength] at hsize
    simp [ofText, hne, hsize, a.wellFormed]

@[simp] theorem ofText_text (a : Address) : ofText a.text = .ok a := ofText_eq_ok_iff.2 rfl

example : zero.isZero = true := by decide

end Address

end WithdrawalPool
