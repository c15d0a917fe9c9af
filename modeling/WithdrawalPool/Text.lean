/-
The length of a text in bytes of UTF-8, character by character.  Lengths in bytes and in
characters agree on ASCII text and on no other.
-/
namespace WithdrawalPool

namespace Text

/-- The number of bytes of UTF-8 that characters take up. -/
def byteLength : List Char → Nat
  | [] => 0
  | c :: rest => c.utf8Size + byteLength rest

theorem utf8ByteSize_ofList (l : List Char) : (String.ofList l).utf8ByteSize = byteLength l := by
  induction l with
  | nil => rfl
  | cons c l ih =>
    rw [String.ofList_cons, String.utf8ByteSize_append, String.utf8ByteSize_singleton, ih]
    rfl

theorem utf8ByteSize_eq_byteLength (s : String) : s.utf8ByteSize = byteLength s.toList := by
  rw [← utf8ByteSize_ofList, String.ofList_toList]

theorem utf8Size_of_le {c : Char} (h : c.toNat ≤ 127) : c.utf8Size = 1 := by
  simp only [Char.utf8Size]
  rw [if_pos]
  exact h

theorem utf8ByteSize_eq_length {s : String} (h : ∀ c ∈ s.toList, c.toNat ≤ 127) :
    s.utf8ByteSize = s.toList.length := by
  rw [utf8ByteSize_eq_byteLength]
  generalize s.toList = l at h
  induction l with
  | nil => rfl
  | cons c l ih =>
    have hc := utf8Size_of_le (h c List.mem_cons_self)
    have hl := ih fun d hd => h d (List.mem_cons_of_mem _ hd)
    simp only [byteLength, List.length_cons, hc, hl]
    omega

theorem length_le_utf8ByteSize (s : String) : s.toList.length ≤ s.utf8ByteSize := by
  rw [utf8ByteSize_eq_byteLength]
  induction s.toList with
  | nil => simp
  | cons c l ih =>
    have := Char.utf8Size_pos c
    simp only [byteLength, List.length_cons]
    omega

theorem isPrefix_iff {mark text : String} :
    mark.toList <+: text.toList ↔ ∃ rest, text = mark ++ rest := by
  constructor
  · rintro ⟨rest, hrest⟩
    refine ⟨String.ofList rest, String.toList_injective ?_⟩
    rw [String.toList_append, String.toList_ofList, hrest]
  · rintro ⟨rest, rfl⟩
    rw [String.toList_append]
    exact List.prefix_append _ _

/-- What holds of the first 128 characters holds of every character in ASCII. -/
theorem forall_ascii {p : Char → Prop} (h : ∀ n < 128, p (Char.ofNat n)) {c : Char}
    (hc : c.toNat ≤ 127) : p c := by
  have hp := h c.toNat (Nat.lt_succ_of_le hc)
  rwa [Char.ofNat_toNat] at hp

/-- A class of characters in ASCII is told by the list of its members. -/
theorem iff_mem_of_ascii {p : Char → Bool} {chars : List Char} (hchars : chars.all p = true)
    (hmem : ∀ n < 128, p (Char.ofNat n) = true → Char.ofNat n ∈ chars)
    (hascii : ∀ c, p c = true → c.toNat ≤ 127) {c : Char} : p c = true ↔ c ∈ chars :=
  ⟨fun hc => forall_ascii (p := fun c => p c = true → c ∈ chars) hmem (hascii c hc) hc,
    List.all_eq_true.1 hchars c⟩

end Text

end WithdrawalPool
