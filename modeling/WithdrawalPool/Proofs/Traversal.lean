/-
The order in which a walk meets the transfers, and how far a visitor gets.  A walk through the
whole pool goes down the places, so it meets every transfer once, and those of one contract in the
order in which a walk through that contract alone does.  A visitor is shown the transfers up to the
first that it is done with.
-/
import WithdrawalPool.Proofs.Addresses
import WithdrawalPool.Proofs.Building
import WithdrawalPool.Proofs.Flat

namespace WithdrawalPool

universe u v

/-- A function that is monotone on the members of two lists keeps their lexicographic order. -/
theorem map_lt_map {α : Type u} {β : Type v} [LT α] [LT β] {f : α → β} {left right : List α}
    (hf : ∀ a ∈ left, ∀ b ∈ right, a < b → f a < f b) (h : left < right) :
    left.map f < right.map f := by
  induction left generalizing right with
  | nil =>
      cases right with
      | nil => exact absurd h (List.not_lt_nil _)
      | cons b right => exact List.nil_lt_cons _ _
  | cons a left ih =>
      cases right with
      | nil => exact absurd h (List.not_lt_nil _)
      | cons b right =>
          rw [List.cons_lt_cons_iff] at h
          rw [List.map_cons, List.map_cons, List.cons_lt_cons_iff]
          rcases h with hlt | ⟨rfl, hlt⟩
          · exact Or.inl (hf a List.mem_cons_self b List.mem_cons_self hlt)
          · refine Or.inr ⟨rfl, ih ?_ hlt⟩
            intro c hc d hd
            exact hf c (List.mem_cons_of_mem _ hc) d (List.mem_cons_of_mem _ hd)

namespace Address

/-- The text of an address, byte by byte. -/
def textBytes (a : Address) : List UInt8 := a.text.toUTF8.data.toList

theorem toNat_le_of_mem_text {a : Address} {c : Char} (hc : c ∈ a.text.toList) :
    c.toNat ≤ 127 := by
  rw [toList_text, List.mem_cons, List.mem_cons] at hc
  rcases hc with rfl | rfl | hc
  · decide
  · decide
  · exact Hex.toNat_le_of_isDigit (isDigit_of_mem_digits hc)

/-- An address is ASCII text, and each of its characters is one byte. -/
theorem textBytes_eq_map (a : Address) : a.textBytes = a.text.toList.map Char.toUInt8 := by
  have hbytes : a.textBytes = a.text.toList.flatMap String.utf8EncodeChar := by
    rw [textBytes, String.toUTF8_eq_toByteArray, ← String.utf8Encode_toList, List.utf8Encode,
      List.data_toByteArray]
  rw [hbytes, List.map_eq_flatMap]
  apply List.flatMap_congr
  intro c hc
  exact String.utf8EncodeChar_eq_singleton (Text.utf8Size_of_le (toNat_le_of_mem_text hc))

theorem toUInt8_lt {c d : Char} (hc : c.toNat ≤ 127) (hd : d.toNat ≤ 127) (h : c < d) :
    c.toUInt8 < d.toUInt8 := by
  have hlt : c.toNat < d.toNat := UInt32.lt_iff_toNat_lt.1 h
  have hvalue {e : Char} (he : e.toNat ≤ 127) : e.toUInt8.toNat = e.toNat := by
    rw [Char.toUInt8, UInt32.toNat_toUInt8]
    exact Nat.mod_eq_of_lt (Nat.lt_of_le_of_lt he (by decide))
  rw [UInt8.lt_iff_toNat_lt, hvalue hc, hvalue hd]
  exact hlt

/-- Addresses are in the order of their bytes. -/
theorem textBytes_lt_of_compare {a b : Address} (h : compare a b = .lt) :
    a.textBytes < b.textBytes := by
  have htext : a.text < b.text := compareOfLessAndEq_eq_lt.1 h
  rw [textBytes_eq_map, textBytes_eq_map]
  apply map_lt_map _ htext
  intro c hc d hd
  exact toUInt8_lt (toNat_le_of_mem_text hc) (toNat_le_of_mem_text hd)

end Address

namespace Transfer

/-- The order of the places that transfers belong in: by the bytes of the contract, then by the
fee, then by the id. -/
def Below (t u : Transfer) : Prop :=
  t.contract.textBytes < u.contract.textBytes ∨
    t.contract = u.contract ∧
      (t.fee.amount < u.fee.amount ∨ t.fee.amount = u.fee.amount ∧ t.id < u.id)

theorem below_of_compare {t u : Transfer} (h : compare t.place u.place = .lt) : t.Below u := by
  rcases Ordering.then_eq_lt.1 h with hcontract | ⟨hcontract, hkey⟩
  · exact Or.inl (Address.textBytes_lt_of_compare hcontract)
  · exact Or.inr ⟨Std.LawfulEqCmp.eq_of_compare hcontract, FeeKey.lt_of_compare hkey⟩

end Transfer

namespace Pool

variable {p : Pool}

/-- The places of the transfers go down along a walk. -/
theorem Filed.pairwise_place (h : p.Filed) :
    (p.walk .all).Pairwise fun earlier later => compare later.place earlier.place = .lt := by
  rw [walk_all_eq, List.pairwise_reverse, SortedMap.values, List.pairwise_map]
  apply p.flat.ascending.imp_of_mem
  have hplace {e : Place × Transfer} (he : e ∈ p.flat.entries) : e.1 = e.2.place := by
    have hfind := SortedMap.find?_eq_some_iff.2 he
    rw [find?_flat] at hfind
    exact Place.ext (h _ _ _ hfind).symm (FeeGroup.key_of_find?_eq_some hfind).symm
  intro left right hleft hright hlt
  rwa [hplace hleft, hplace hright] at hlt

theorem Filed.nodup_walk (h : p.Filed) : (p.walk .all).Nodup := by
  apply h.pairwise_place.imp
  rintro t u hlt rfl
  have hself : compare t.place t.place = .eq := Std.ReflCmp.compare_self
  rw [hself] at hlt
  contradiction

/-- A walk meets what is filed, at the place that the transfer itself gives. -/
theorem Filed.find?_eq_some_iff (h : p.Filed) {contract : Address} {key : FeeKey}
    {t : Transfer} :
    p.find? contract key = some t ↔ t ∈ p.walk .all ∧ t.contract = contract ∧ t.key = key := by
  constructor
  · intro hfind
    exact ⟨mem_of_find?_eq_some hfind, h contract key t hfind,
      FeeGroup.key_of_find?_eq_some hfind⟩
  · rintro ⟨ht, rfl, rfl⟩
    exact h.find?_of_mem ht

section

variable {σ : Type u} (visitor : σ → Transfer → ForInStep σ)

/-- The state of a visitor that was shown transfers one after the other. -/
def stateAfter (s : σ) (seen : List Transfer) : σ := seen.foldl (fun s t => (visitor s t).value) s

/-- The visitor is done with the transfer, once it was shown those before. -/
def DoneAt (s : σ) (before : List Transfer) (t : Transfer) : Prop :=
  ∃ s', visitor (stateAfter visitor s before) t = .done s'

/-- The visitor is not done with any of the transfers. -/
def GoesOn (s : σ) (ts : List Transfer) : Prop :=
  ∀ before t, before ++ [t] <+: ts → ¬ DoneAt visitor s before t

/-- The transfers that a visitor of a list is to be shown: those up to the first that it is done
with, or all of them. -/
inductive Shown (s : σ) (ts : List Transfer) : List Transfer → Prop
  | all (hgoesOn : GoesOn visitor s ts) : Shown s ts ts
  | upTo {before : List Transfer} {t : Transfer} (hinitial : before ++ [t] <+: ts)
      (hgoesOn : GoesOn visitor s before) (hdone : DoneAt visitor s before t) :
      Shown s ts (before ++ [t])

/-- The visitor, with a record of what it was shown. -/
def recording : σ × List Transfer → Transfer → ForInStep (σ × List Transfer)
  | (s, seen), t =>
    match visitor s t with
    | .done s' => .done (s', seen ++ [t])
    | .yield s' => .yield (s', seen ++ [t])

variable {visitor} {s s' : σ} {t : Transfer} {ts seen seen' : List Transfer}

theorem stateAfter_cons_of_yield (hyield : visitor s t = .yield s') (seen : List Transfer) :
    stateAfter visitor s (t :: seen) = stateAfter visitor s' seen := by
  rw [stateAfter, List.foldl_cons, hyield]
  rfl

theorem goesOn_nil : GoesOn visitor s [] := by
  intro before t hinitial
  simp at hinitial

theorem GoesOn.cons (h : GoesOn visitor s' ts) (hyield : visitor s t = .yield s') :
    GoesOn visitor s (t :: ts) := by
  intro before u hinitial hdone
  cases before with
  | nil =>
      obtain ⟨rfl, _⟩ := List.cons_prefix_cons.1 hinitial
      obtain ⟨last, hlast⟩ := hdone
      rw [stateAfter, List.foldl_nil, hyield] at hlast
      contradiction
  | cons first before =>
      obtain ⟨rfl, hrest⟩ := List.cons_prefix_cons.1 hinitial
      apply h before u hrest
      rwa [DoneAt, stateAfter_cons_of_yield hyield] at hdone

/-- A visitor that is done with the first transfer is shown no other. -/
theorem Shown.of_done (hdone : visitor s t = .done s') (ts : List Transfer) :
    Shown visitor s (t :: ts) [t] := by
  have hinitial : [] ++ [t] <+: t :: ts := ⟨ts, rfl⟩
  exact .upTo hinitial goesOn_nil ⟨s', hdone⟩

theorem Shown.cons (h : Shown visitor s' ts seen) (hyield : visitor s t = .yield s') :
    Shown visitor s (t :: ts) (t :: seen) := by
  cases h with
  | all hgoesOn => exact .all (hgoesOn.cons hyield)
  | @upTo before u hinitial hgoesOn hdone =>
      have hlonger : (t :: before) ++ [u] <+: t :: ts := List.cons_prefix_cons.2 ⟨rfl, hinitial⟩
      have hlater : DoneAt visitor s (t :: before) u := by
        rwa [DoneAt, stateAfter_cons_of_yield hyield]
      exact .upTo hlonger (hgoesOn.cons hyield) hlater

/-- A list has one initial segment that ends with the first transfer a visitor is done with. -/
theorem Shown.unique (h : Shown visitor s ts seen) (h' : Shown visitor s ts seen') :
    seen = seen' := by
  -- Of two segments that end so, the longer one would go past the end of the other.
  have hends {before before' : List Transfer} {t t' : Transfer}
      (hinitial : before ++ [t] <+: ts) (hdone : DoneAt visitor s before t)
      (hinitial' : before' ++ [t'] <+: ts) (hgoesOn : GoesOn visitor s before')
      (hle : (before ++ [t]).length ≤ (before' ++ [t']).length) :
      before ++ [t] = before' ++ [t'] := by
    have hshort := List.prefix_of_prefix_length_le hinitial hinitial' hle
    rcases List.prefix_concat_iff.1 hshort with heq | hinside
    · exact heq
    · exact absurd hdone (hgoesOn _ _ hinside)
  cases h with
  | all hgoesOn =>
      cases h' with
      | all => rfl
      | upTo hinitial _ hdone => exact absurd hdone (hgoesOn _ _ hinitial)
  | upTo hinitial hgoesOn hdone =>
      cases h' with
      | all hgoesOn' => exact absurd hdone (hgoesOn' _ _ hinitial)
      | upTo hinitial' hgoesOn' hdone' =>
          rcases Nat.le_total (List.length _) (List.length _) with hle | hle
          · exact hends hinitial hdone hinitial' hgoesOn' hle
          · exact (hends hinitial' hdone' hinitial hgoesOn hle).symm

/-- A fold that may end early gets as far as its visitor is to be shown the list. -/
theorem exists_shown (visitor : σ → Transfer → ForInStep σ) (s : σ) (ts : List Transfer) :
    ∃ seen, Shown visitor s ts seen ∧ foldUntil visitor s ts = stateAfter visitor s seen ∧
      ∀ log, foldUntil (recording visitor) (s, log) ts =
        (stateAfter visitor s seen, log ++ seen) := by
  induction ts generalizing s with
  | nil =>
      exact ⟨[], .all goesOn_nil, rfl, fun log => by simp [foldUntil, stateAfter]⟩
  | cons t rest ih =>
      cases hstep : visitor s t with
      | done s' =>
          refine ⟨[t], .of_done hstep rest, ?_, fun log => ?_⟩
          · simp [foldUntil, stateAfter, hstep, ForInStep.value]
          · simp [foldUntil, recording, stateAfter, hstep, ForInStep.value]
      | yield s' =>
          obtain ⟨seen, hshown, hfold, hrecord⟩ := ih s'
          refine ⟨t :: seen, hshown.cons hstep, ?_, fun log => ?_⟩
          · simp [foldUntil, hstep, hfold, stateAfter_cons_of_yield hstep]
          · simp [foldUntil, recording, hstep, hrecord, stateAfter_cons_of_yield hstep]

end

/-- A visitor of the pool is shown what it is to be shown of the walk. -/
theorem exists_visited (p : Pool) (scope : Scope) {σ : Type u}
    (visitor : σ → Transfer → ForInStep σ) (s : σ) :
    ∃ seen, p.visit scope (recording visitor) (s, []) = (p.visit scope visitor s, seen) ∧
      p.visit scope visitor s = stateAfter visitor s seen ∧
      ∀ other, Shown visitor s (p.walk scope) other ↔ other = seen := by
  obtain ⟨seen, hshown, hfold, hrecord⟩ := exists_shown visitor s (p.walk scope)
  refine ⟨seen, ?_, hfold, fun other => ⟨fun hother => hother.unique hshown, ?_⟩⟩
  · rw [visit, visit, hrecord, hfold, List.nil_append]
  · rintro rfl
    exact hshown

end Pool

namespace Sample

/-- The sample withdrawal, as it is recorded. -/
def low : Transfer := withdrawal.toTransfer 1 contract contract

/-- A later withdrawal of the same vouchers, with a higher fee. -/
def high : Transfer := { low with id := 2, fee := ⟨contract, 9⟩ }

/-- Both of them are pending. -/
def both : Pool := ((∅ : Pool).place contract low).place contract high

theorem filed_both : both.Filed := (Pool.filed_empty.place low).place high

end Sample

namespace Store

open Pool in
/-- In every store that insertions, removals and calls have built, a walk through the whole pool
strictly descends by the bytes of the contract, the fee and the id, and meets every transfer that
is filed exactly once.  A walk through one contract meets those of them that are on the contract, in
the same order.  A visitor is shown the transfers of a walk in order, up to the first that it is
done with and no further, and each state that it hands over is the one that it is called with
next. -/
theorem walks_descend_and_stop_early {s : Store} (h : s.Built) :
    ((s.pool.walk .all).Pairwise fun earlier later => later.Below earlier) ∧
      (s.pool.walk .all).Nodup ∧
      (∀ contract key t, s.pool.find? contract key = some t ↔
        t ∈ s.pool.walk .all ∧ t.contract = contract ∧ t.key = key) ∧
      (∀ contract, s.pool.walk (.contract contract) =
        (s.pool.walk .all).filter fun t => t.contract = contract) ∧
      ∀ (scope : Scope) (σ : Type u) (visitor : σ → Transfer → ForInStep σ) (start : σ),
        ∃ seen, s.pool.visit scope (recording visitor) (start, []) =
            (s.pool.visit scope visitor start, seen) ∧
          s.pool.visit scope visitor start = stateAfter visitor start seen ∧
          ∀ other, Shown visitor start (s.pool.walk scope) other ↔ other = seen := by
  have hfiled : s.pool.Filed := h.filed
  refine ⟨hfiled.pairwise_place.imp Transfer.below_of_compare, hfiled.nodup_walk,
    fun contract key t => hfiled.find?_eq_some_iff, fun contract => ?_,
    fun scope σ visitor start => s.pool.exists_visited scope visitor start⟩
  exact (hfiled.filter_walk contract).symm

open Pool Sample in
/-- The walk meets the higher fee first, and a visitor that is done at once is shown no other. -/
theorem walks_descend_and_stop_early_of_sample :
    Built ⟨both, {}⟩ ∧ both.walk .all = [high, low] ∧ low.Below high ∧
      both.visit .all (recording fun count _ => .done (count + 1)) (0, []) = (1, [high]) := by
  have hlow : (∅ : Pool).insert low = .ok ((∅ : Pool).place contract low) := by rfl
  have hhigh : ((∅ : Pool).place contract low).insert high = .ok both :=
    insert_eq_ok_iff.2 ⟨by decide +kernel, rfl⟩
  have hbuilt : Built ⟨both, {}⟩ := .inserted (.inserted (.start {}) hlow) hhigh
  have hwalk : both.walk .all = [high, low] := by decide +kernel
  obtain ⟨hdescends, _, _, _, hvisits⟩ := walks_descend_and_stop_early.{0} hbuilt
  obtain ⟨seen, hrecord, hstate, hshown⟩ := hvisits .all Nat (fun count _ => .done (count + 1)) 0
  rw [hwalk] at hdescends hshown
  have hseen : [high] = seen := (hshown [high]).1 (.of_done rfl [low])
  refine ⟨hbuilt, hwalk, (List.pairwise_cons.1 hdescends).1 low List.mem_cons_self, ?_⟩
  rw [hrecord, hstate, ← hseen]
  rfl

end Store

end WithdrawalPool
