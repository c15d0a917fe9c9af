/-
The counter of ids over its whole life, in which it may be written down and read again, or made anew
from the id that it stands at.  The ids that it hands out are consecutive all the same, up to the
largest that has a successor, and after that it hands out none.
-/
import Mathlib.Data.List.Range
import WithdrawalPool.Proofs.RoundTrip

namespace WithdrawalPool

namespace IdCounter

/-- What is done with a counter. -/
inductive Use where
  | take
  | ensure
  | peek
  /-- Writes the counter down and goes on with what is read from there. -/
  | save
  /-- Goes on with a new counter that starts at the id of this one. -/
  | rebuild
deriving DecidableEq

/-- What comes of a use. -/
inductive Outcome where
  | taken (id : UInt64)
  | available (next : UInt64)
  | standing (id : UInt64)
  | refused (e : PoolError)
  | restored
  | lost (e : Json.DecodeError)
deriving DecidableEq

/-- The id that was handed out, if one was. -/
def Outcome.id? : Outcome → Option UInt64
  | .taken id => some id
  | _ => none

/-- What a reader makes of the document of a counter. -/
def reread (c : IdCounter) : Except Json.DecodeError IdCounter :=
  Json.Decoder.run format.decode (format.encode c).write

/-- What comes of a use, and the counter afterwards. -/
def use (c : IdCounter) : Use → Outcome × IdCounter
  | .take =>
    match c.take with
    | .ok (id, c') => (.taken id, c')
    | .error e => (.refused e, c)
  | .ensure =>
    match c.successor with
    | .ok next => (.available next, c)
    | .error e => (.refused e, c)
  | .peek => (.standing c.peek, c)
  | .save =>
    match c.reread with
    | .ok c' => (.restored, c')
    | .error e => (.lost e, c)
  | .rebuild => (.restored, startingAt c.peek)

/-- What comes of one use after the other, and the counter in the end. -/
def useAll (c : IdCounter) : List Use → List Outcome × IdCounter
  | [] => ([], c)
  | u :: rest => ((c.use u).1 :: ((c.use u).2.useAll rest).1, ((c.use u).2.useAll rest).2)

/-- The ids that were handed out, in their order. -/
def idsOf (outcomes : List Outcome) : List UInt64 := outcomes.filterMap Outcome.id?

/-- No id is left: the counter stands at the largest. -/
def Exhausted (c : IdCounter) : Prop := c.peek = 18446744073709551615

variable {c c' : IdCounter} {u : Use} {uses : List Use}

theorem exhausted_iff : c.Exhausted ↔ ¬ c.peek.toNat + 1 < UInt64.size := by
  have hlt := c.peek.toNat_lt
  rw [Exhausted, ← UInt64.toNat_inj]
  change c.peek.toNat = 18446744073709551615 ↔ ¬ c.peek.toNat + 1 < 18446744073709551616
  omega

theorem use_of_exhausted (h : c.Exhausted) :
    c.use .take = (.refused .idsExhausted, c) ∧ c.use .ensure = (.refused .idsExhausted, c) := by
  have hnone : c.successor = .error .idsExhausted := by
    rw [successor, if_neg (exhausted_iff.1 h)]
  constructor
  · rw [use, take, hnone]
  · rw [use, hnone]

/-- A counter that has an id left hands out the one that it stands at, and stands at the next one
afterwards. -/
theorem use_of_not_exhausted (h : ¬ c.Exhausted) :
    ∃ next : UInt64, next.toNat = c.peek.toNat + 1 ∧
      c.use .take = (.taken c.peek, startingAt next) ∧ c.use .ensure = (.available next, c) := by
  have hroom := not_not.1 (mt exhausted_iff.2 h)
  have hnext : c.successor = .ok (c.peek + 1) := by rw [successor, if_pos hroom]
  refine ⟨c.peek + 1, successor_eq_ok_iff.1 hnext, ?_, ?_⟩
  · rw [use, take, hnext]
    rfl
  · rw [use, hnext]

theorem use_save (c : IdCounter) : c.use .save = (.restored, c) := by
  have hread : c.reread = .ok c := lawful_format.roundTrips.run c
  rw [use, hread]

theorem use_of_ne_take (hu : u ≠ .take) :
    (c.use u).1.id? = none ∧ (c.use u).2.peek = c.peek := by
  cases u with
  | take => contradiction
  | ensure =>
      rw [use]
      cases c.successor <;> exact ⟨rfl, rfl⟩
  | peek => exact ⟨rfl, rfl⟩
  | save =>
      rw [use_save]
      exact ⟨rfl, rfl⟩
  | rebuild => exact ⟨rfl, rfl⟩

/-- A use hands out the id that the counter stands at and moves it on by one, or it hands out none
and leaves the counter where it stands. -/
theorem use_step (c : IdCounter) (u : Use) :
    ((c.use u).1.id? = some c.peek ∧ (c.use u).2.peek.toNat = c.peek.toNat + 1) ∨
      ((c.use u).1.id? = none ∧ (c.use u).2.peek = c.peek) := by
  by_cases hu : u = .take
  · subst hu
    by_cases hexhausted : c.Exhausted
    · rw [(use_of_exhausted hexhausted).1]
      exact Or.inr ⟨rfl, rfl⟩
    · obtain ⟨next, hnext, htake, _⟩ := use_of_not_exhausted hexhausted
      rw [htake]
      exact Or.inl ⟨rfl, hnext⟩
  · exact Or.inr (use_of_ne_take hu)

/-- Counters that stand at one id behave alike, also if only one of them has handed out an id. -/
theorem use_congr (h : c.peek = c'.peek) (u : Use) :
    (c.use u).1 = (c'.use u).1 ∧ (c.use u).2.peek = (c'.use u).2.peek := by
  have hsuccessor : c.successor = c'.successor := by rw [successor, successor, h]
  cases u with
  | take =>
      rw [use, take, use, take, hsuccessor, h]
      cases c'.successor with
      | ok next => exact ⟨rfl, rfl⟩
      | error e => exact ⟨rfl, h⟩
  | ensure =>
      rw [use, use, hsuccessor]
      cases c'.successor <;> exact ⟨rfl, h⟩
  | peek => exact ⟨congrArg Outcome.standing h, h⟩
  | save =>
      rw [use_save, use_save]
      exact ⟨rfl, h⟩
  | rebuild => exact ⟨rfl, h⟩

theorem use_ne_lost (c : IdCounter) (u : Use) (e : Json.DecodeError) : (c.use u).1 ≠ .lost e := by
  cases u with
  | take =>
      rw [use]
      cases c.take <;> nofun
  | ensure =>
      rw [use]
      cases c.successor <;> nofun
  | peek => nofun
  | save =>
      rw [use_save]
      nofun
  | rebuild => nofun

/-- The ids count up from where the counter stood at first, and the counter stands right after the
last of them. -/
theorem count_useAll (c : IdCounter) (uses : List Use) :
    (idsOf (c.useAll uses).1).map UInt64.toNat =
        List.range' c.peek.toNat (idsOf (c.useAll uses).1).length ∧
      (c.useAll uses).2.peek.toNat = c.peek.toNat + (idsOf (c.useAll uses).1).length := by
  induction uses generalizing c with
  | nil => exact ⟨rfl, rfl⟩
  | cons u rest ih =>
      obtain ⟨hids, hpeek⟩ := ih (c.use u).2
      rw [useAll, idsOf, List.filterMap_cons]
      rcases use_step c u with ⟨htaken, hnext⟩ | ⟨hnone, hsame⟩
      · rw [hnext] at hids hpeek
        rw [htaken]
        constructor
        · exact congrArg (c.peek.toNat :: ·) hids
        · exact hpeek.trans (Nat.add_right_comm _ _ _)
      · rw [hsame] at hids hpeek
        rw [hnone]
        exact ⟨hids, hpeek⟩

theorem useAll_congr (h : c.peek = c'.peek) (uses : List Use) :
    (c.useAll uses).1 = (c'.useAll uses).1 := by
  induction uses generalizing c c' with
  | nil => rfl
  | cons u rest ih =>
      obtain ⟨houtcome, hpeek⟩ := use_congr h u
      rw [useAll, useAll, houtcome, ih hpeek]

theorem lost_not_mem_useAll (c : IdCounter) (uses : List Use) (e : Json.DecodeError) :
    .lost e ∉ (c.useAll uses).1 := by
  induction uses generalizing c with
  | nil => exact List.not_mem_nil
  | cons u rest ih =>
      rw [useAll, List.mem_cons, not_or]
      exact ⟨(use_ne_lost c u e).symm, ih _⟩

theorem Exhausted.useAll (h : c.Exhausted) (uses : List Use) : (c.useAll uses).2.Exhausted := by
  induction uses generalizing c with
  | nil => exact h
  | cons u rest ih =>
      have hstands : (c.use u).2.Exhausted := by
        rcases use_step c u with ⟨_, hnext⟩ | ⟨_, hsame⟩
        · exact absurd (hnext ▸ (c.use u).2.peek.toNat_lt) (exhausted_iff.1 h)
        · rw [Exhausted, hsame, h]
      exact ih hstands

/-- An id is announced exactly if one would be handed out, and announcing it changes nothing. -/
theorem use_ensure_iff (c : IdCounter) :
    ((∃ next, (c.use .ensure).1 = .available next) ↔ ∃ id, (c.use .take).1 = .taken id) ∧
      (c.use .ensure).2 = c := by
  by_cases hexhausted : c.Exhausted
  · obtain ⟨htake, hensure⟩ := use_of_exhausted hexhausted
    rw [htake, hensure]
    exact ⟨iff_of_false nofun nofun, rfl⟩
  · obtain ⟨next, _, htake, hensure⟩ := use_of_not_exhausted hexhausted
    rw [htake, hensure]
    exact ⟨iff_of_true ⟨next, rfl⟩ ⟨c.peek, rfl⟩, rfl⟩

/-- Whatever is done with a counter, the ids that it hands out are consecutive from where it stood at
first, each the one that it stood at right before.  Asking for one in advance tells whether there is
one and changes nothing.  The counter is read back from its document as it was, and goes on in the
same way where it is made anew.  At the largest id it hands out none, then and ever after, and stays
there. -/
theorem ids_go_on_through_restarts {start last : IdCounter} {outcomes : List Outcome}
    (h : start.useAll uses = (outcomes, last)) :
    ((idsOf outcomes).map UInt64.toNat =
        List.range' start.peek.toNat (idsOf outcomes).length ∧
      last.peek.toNat = start.peek.toNat + (idsOf outcomes).length ∧
      ∀ e, .lost e ∉ outcomes) ∧
      (((∃ next, (last.use .ensure).1 = .available next) ↔
          ∃ id, (last.use .take).1 = .taken id) ∧
        (last.use .ensure).2 = last ∧
        last.use .peek = (.standing last.peek, last)) ∧
      (last.use .save = (.restored, last) ∧
        ∀ more, ((last.use .rebuild).2.useAll more).1 = (last.useAll more).1) ∧
      (last.peek ≠ 18446744073709551615 →
        ∃ next : UInt64, next.toNat = last.peek.toNat + 1 ∧
          last.use .take = (.taken last.peek, startingAt next) ∧
          last.use .ensure = (.available next, last)) ∧
      (last.peek = 18446744073709551615 →
        ∀ more outcomes' final, last.useAll more = (outcomes', final) →
          final.peek = 18446744073709551615 ∧
            final.use .take = (.refused (.corrupted "transfer id space exhausted"), final) ∧
            final.use .ensure = (.refused (.corrupted "transfer id space exhausted"), final)) := by
  have hcount := count_useAll start uses
  have hlost := lost_not_mem_useAll start uses
  rw [h] at hcount hlost
  obtain ⟨hensure, hkept⟩ := use_ensure_iff last
  refine ⟨⟨hcount.1, hcount.2, hlost⟩, ⟨hensure, hkept, rfl⟩,
    ⟨use_save last, useAll_congr rfl⟩, use_of_not_exhausted, ?_⟩
  intro hexhausted more outcomes' final hmore
  have hfinal : final.Exhausted := by
    have hstays := Exhausted.useAll hexhausted more
    rwa [hmore] at hstays
  exact ⟨hfinal, use_of_exhausted hfinal⟩

/-- The counter two ids before its end is saved and made anew on the way, hands out both and is
exhausted then. -/
theorem ids_go_on_through_restarts_of_sample :
    ∃ outcomes last,
      (startingAt 18446744073709551613).useAll [.take, .save, .ensure, .rebuild, .take, .take] =
        (outcomes, last) ∧
      (idsOf outcomes).map UInt64.toNat = [18446744073709551613, 18446744073709551614] ∧
      ((last.useAll [.save, .rebuild]).2.use .take).1 =
        .refused (.corrupted "transfer id space exhausted") := by
  have hrun : (startingAt 18446744073709551613).useAll
      [.take, .save, .ensure, .rebuild, .take, .take] =
        ([.taken 18446744073709551613, .restored, .available 18446744073709551615, .restored,
          .taken 18446744073709551614, .refused .idsExhausted],
          startingAt 18446744073709551615) := by
    simp only [useAll, use_save]
    decide
  have hexhausted := (ids_go_on_through_restarts hrun).2.2.2.2 rfl [.save, .rebuild] _ _ rfl
  exact ⟨_, _, hrun, rfl, congrArg Prod.fst hexhausted.2.1⟩

end IdCounter

end WithdrawalPool
