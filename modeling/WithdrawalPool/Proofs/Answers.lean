/-
What a pool answers.  Whatever calls came before, a pool answers as one map from places to
transfers does, and a call that is refused leaves nothing behind.
-/
import WithdrawalPool.Proofs.Flat
import WithdrawalPool.Proofs.Submission

namespace WithdrawalPool

/-- A call to a pool that involves no collaborator. -/
inductive PoolCall where
  | insert (t : Transfer)
  | remove (fee : TokenAmount) (id : UInt64)
  | get (contract : Address) (key : FeeKey)
  | getById (id : UInt64)
  | size
  | isEmpty
  | contracts
deriving DecidableEq

inductive PoolAnswer where
  | done
  | transfer (t : Transfer)
  | count (n : Nat)
  | flag (b : Bool)
  | contracts (contracts : List Address)
  | refused (e : PoolError)
deriving DecidableEq

namespace PoolAnswer

def ofLookup : Except PoolError Transfer → PoolAnswer
  | .ok t => .transfer t
  | .error e => .refused e

end PoolAnswer

namespace Pool

/-- The answer of a pool to a call, and the pool after it. -/
def serve (p : Pool) : PoolCall → PoolAnswer × Pool
  | .insert t =>
    match p.insert t with
    | .ok q => (.done, q)
    | .error e => (.refused e, p)
  | .remove fee id =>
    match p.remove fee id with
    | .ok (t, q) => (.transfer t, q)
    | .error e => (.refused e, p)
  | .get contract key => (.ofLookup (p.get contract key), p)
  | .getById id => (.ofLookup (p.getById id), p)
  | .size => (.count p.size, p)
  | .isEmpty => (.flag p.isEmpty, p)
  | .contracts => (.contracts p.contracts, p)

/-- The answers of a pool to calls one after the other, and the pool after the last of them. -/
def serveAll (p : Pool) : List PoolCall → List PoolAnswer × Pool
  | [] => ([], p)
  | call :: rest =>
    let (answer, q) := p.serve call
    let (answers, r) := q.serveAll rest
    (answer :: answers, r)

end Pool

namespace FlatPool

variable {m m' m'' : FlatPool} {call : PoolCall} {answer answer' : PoolAnswer}

/-- The answer that one map from places to transfers gives to a call, and the map after it. -/
inductive Answers (m : FlatPool) : PoolCall → PoolAnswer → FlatPool → Prop
  | inserted {t : Transfer} (hfree : m.find? t.place = none) :
      Answers m (.insert t) .done (m.insert t.place t)
  | taken {t other : Transfer} (htaken : m.find? t.place = some other) :
      Answers m (.insert t) (.refused (.alreadyPending t.id)) m
  | removed {fee : TokenAmount} {id : UInt64} {t : Transfer}
      (hfound : m.find? ⟨fee.contract, ⟨fee.amount, id⟩⟩ = some t) :
      Answers m (.remove fee id) (.transfer t) (m.erase ⟨fee.contract, ⟨fee.amount, id⟩⟩)
  | notRemoved {fee : TokenAmount} {id : UInt64}
      (habsent : m.find? ⟨fee.contract, ⟨fee.amount, id⟩⟩ = none) :
      Answers m (.remove fee id) (.refused (.unknownTransfer id)) m
  | got {contract : Address} {key : FeeKey} {t : Transfer}
      (hfound : m.find? ⟨contract, key⟩ = some t) :
      Answers m (.get contract key) (.transfer t) m
  | notGot {contract : Address} {key : FeeKey} (habsent : m.find? ⟨contract, key⟩ = none) :
      Answers m (.get contract key) (.refused (.unknownTransfer key.id)) m
  | gotById {id : UInt64} {place : Place} {t : Transfer} (hfound : m.find? place = some t)
      (hid : t.id = id)
      (hgreatest : ∀ other u, m.find? other = some u → u.id = id → other ≠ place →
        compare other place = .lt) :
      Answers m (.getById id) (.transfer t) m
  | notGotById {id : UInt64} (habsent : ∀ place t, m.find? place = some t → t.id ≠ id) :
      Answers m (.getById id) (.refused (.unknownTransfer id)) m
  | size : Answers m .size (.count m.size) m
  | isEmpty {b : Bool} (hempty : b = true ↔ ∀ place, m.find? place = none) :
      Answers m .isEmpty (.flag b) m
  | contracts {contracts : List Address}
      (hascending : contracts.Pairwise fun left right => compare left right = .lt)
      (hlisted : ∀ contract, contract ∈ contracts ↔ ∃ key t, m.find? ⟨contract, key⟩ = some t) :
      Answers m .contracts (.contracts contracts) m

/-- The answers of one map to calls one after the other, and the map after the last of them. -/
inductive Runs : FlatPool → List PoolCall → List PoolAnswer → FlatPool → Prop
  | nil (m : FlatPool) : Runs m [] [] m
  | cons {m m' m'' : FlatPool} {call : PoolCall} {answer : PoolAnswer} {calls : List PoolCall}
      {answers : List PoolAnswer} (hanswers : Answers m call answer m')
      (hruns : Runs m' calls answers m'') : Runs m (call :: calls) (answer :: answers) m''

theorem eq_of_ascending {left right : List Address}
    (hleft : left.Pairwise fun a b => compare a b = .lt)
    (hright : right.Pairwise fun a b => compare a b = .lt)
    (hmem : ∀ a, a ∈ left ↔ a ∈ right) : left = right := by
  have hkeys : left.map (fun a => (a, ())) = right.map fun a => (a, ()) :=
    SortedMap.eq_of_mem_iff (List.pairwise_map.2 hleft) (List.pairwise_map.2 hright)
      (by simp [hmem])
  exact List.map_injective_iff.2 (fun _ _ h => congrArg Prod.fst h) hkeys

/-- A map gives one answer to a call. -/
theorem Answers.unique (h : Answers m call answer m') (h' : Answers m call answer' m'') :
    answer = answer' ∧ m' = m'' := by
  cases h with
  | inserted hfree =>
      cases h' with
      | inserted => exact ⟨rfl, rfl⟩
      | taken htaken => cases hfree.symm.trans htaken
  | taken htaken =>
      cases h' with
      | inserted hfree => cases hfree.symm.trans htaken
      | taken => exact ⟨rfl, rfl⟩
  | removed hfound =>
      cases h' with
      | removed hfound' =>
          cases hfound.symm.trans hfound'
          exact ⟨rfl, rfl⟩
      | notRemoved habsent => cases habsent.symm.trans hfound
  | notRemoved habsent =>
      cases h' with
      | removed hfound => cases habsent.symm.trans hfound
      | notRemoved => exact ⟨rfl, rfl⟩
  | got hfound =>
      cases h' with
      | got hfound' =>
          cases hfound.symm.trans hfound'
          exact ⟨rfl, rfl⟩
      | notGot habsent => cases habsent.symm.trans hfound
  | notGot habsent =>
      cases h' with
      | got hfound => cases habsent.symm.trans hfound
      | notGot => exact ⟨rfl, rfl⟩
  | @gotById id place t hfound hid hgreatest =>
      cases h' with
      | @gotById _ place' t' hfound' hid' hgreatest' =>
          by_cases hplace : place = place'
          · subst hplace
            cases hfound.symm.trans hfound'
            exact ⟨rfl, rfl⟩
          · have hlt := hgreatest' place t hfound hid hplace
            have hgt := hgreatest place' t' hfound' hid' (Ne.symm hplace)
            rw [Std.OrientedCmp.gt_of_lt hgt] at hlt
            contradiction
      | notGotById habsent => exact absurd hid (habsent _ _ hfound)
  | notGotById habsent =>
      cases h' with
      | gotById hfound hid => exact absurd hid (habsent _ _ hfound)
      | notGotById => exact ⟨rfl, rfl⟩
  | size =>
      cases h'
      exact ⟨rfl, rfl⟩
  | isEmpty hempty =>
      cases h' with
      | isEmpty hempty' => exact ⟨congrArg _ (Bool.eq_iff_iff.2 (hempty.trans hempty'.symm)), rfl⟩
  | contracts hascending hlisted =>
      cases h' with
      | contracts hascending' hlisted' =>
          have heq := eq_of_ascending hascending hascending'
            fun contract => (hlisted contract).trans (hlisted' contract).symm
          exact ⟨congrArg _ heq, rfl⟩

end FlatPool

namespace Pool

open FlatPool

theorem isEmpty_iff {p : Pool} : p.isEmpty = true ↔ ∀ place, p.flat.find? place = none := by
  constructor
  · intro h place
    have hempty : p = ∅ := Pool.ext (SortedMap.ext (List.isEmpty_iff.1 h))
    rw [hempty]
    rfl
  · intro h
    have hempty : p = ∅ := by
      apply flat_injective
      apply SortedMap.ext_find?
      exact h
    rw [hempty]
    rfl

theorem find?_walk_of_getById {p : Pool} {id : UInt64} {t : Transfer}
    (h : p.getById id = .ok t) : p.flat.values.reverse.find? (·.id = id) = some t := by
  rw [← walk_all_eq]
  unfold getById at h
  split at h
  next found hfound =>
      cases h
      exact hfound
  next => cases h

/-- A pool answers every call as its transfers in one map do. -/
theorem answers_serve (p : Pool) (call : PoolCall) :
    Answers p.flat call (p.serve call).1 (p.serve call).2.flat := by
  cases call with
  | insert t =>
      rw [serve]
      cases hinsert : p.insert t with
      | ok q =>
          obtain ⟨hfree, rfl⟩ := insert_eq_ok_iff.1 hinsert
          rw [flat_place]
          exact .inserted (by rwa [find?_flat])
      | error e =>
          obtain ⟨⟨other, htaken⟩, rfl⟩ := insert_eq_error_iff.1 hinsert
          exact .taken ((p.find?_flat t.place).trans htaken)
  | remove fee id =>
      rw [serve]
      cases hremove : p.remove fee id with
      | ok pair =>
          obtain ⟨t, q⟩ := pair
          have hfound := (remove_eq_ok_iff.1 hremove).1
          rw [flat_remove hremove]
          exact .removed (by rwa [find?_flat])
      | error e =>
          obtain ⟨habsent, rfl⟩ := remove_eq_error_iff.1 hremove
          exact .notRemoved (by rwa [find?_flat])
  | get contract key =>
      rw [serve, get]
      cases hfind : p.find? contract key with
      | some t => exact .got (by rwa [find?_flat])
      | none => exact .notGot (by rwa [find?_flat])
  | getById id =>
      rw [serve]
      cases hget : p.getById id with
      | ok t =>
          obtain ⟨place, hfound, hid, hgreatest⟩ :=
            SortedMap.find?_reverse_values (find?_walk_of_getById hget)
          apply Answers.gotById hfound (by simpa using hid)
          intro other u hother hu
          exact hgreatest other u hother (by simpa using hu)
      | error e =>
          obtain ⟨habsent, rfl⟩ := getById_eq_error_iff.1 hget
          apply Answers.notGotById
          intro place t hfound
          rw [find?_flat] at hfound
          exact habsent t (mem_of_find?_eq_some hfound)
  | size =>
      rw [serve, size_eq]
      exact .size
  | isEmpty => exact .isEmpty isEmpty_iff
  | contracts =>
      apply Answers.contracts p.groups.ascending_keys
      intro contract
      simp only [find?_flat]
      exact mem_contracts_iff

/-- One map would answer calls as a pool does, and not in any other way. -/
theorem runs_flat_iff {p : Pool} {calls : List PoolCall} {answers : List PoolAnswer}
    {m : FlatPool} :
    Runs p.flat calls answers m ↔
      (p.serveAll calls).1 = answers ∧ (p.serveAll calls).2.flat = m := by
  induction calls generalizing p answers with
  | nil =>
      constructor
      · rintro ⟨⟩
        exact ⟨rfl, rfl⟩
      · rintro ⟨rfl, rfl⟩
        exact .nil _
  | cons call rest ih =>
      have hserve := p.answers_serve call
      constructor
      · rintro (_ | ⟨hanswers, hruns⟩)
        obtain ⟨rfl, rfl⟩ := hserve.unique hanswers
        obtain ⟨rfl, rfl⟩ := ih.1 hruns
        exact ⟨rfl, rfl⟩
      · rintro ⟨rfl, rfl⟩
        exact .cons hserve (ih.2 ⟨rfl, rfl⟩)

theorem groups_setGroup_of_ne (p : Pool) (contract : Address) {g : FeeGroup} (h : g ≠ ∅) :
    (p.setGroup contract g).groups = p.groups.insert contract g := by
  simp [setGroup, h]

/-- Adds a transfer in place.  The group of its contract is opened before its place is looked at,
and what a refusal leaves behind is part of the answer. -/
def insertInPlace (groups : SortedMap Address FeeGroup) (t : Transfer) :
    Except PoolError Unit × SortedMap Address FeeGroup :=
  let opened := if (groups.find? t.contract).isSome then groups else groups.insert t.contract ∅
  let g := (opened.find? t.contract).getD ∅
  if (g.find? t.key).isSome then (.error (.alreadyPending t.id), opened)
  else (.ok (), opened.insert t.contract (g.insert t))

/-- Takes a transfer out in place.  Its group goes away only once it is found to be empty. -/
def removeInPlace (groups : SortedMap Address FeeGroup) (fee : TokenAmount) (id : UInt64) :
    Except PoolError Transfer × SortedMap Address FeeGroup :=
  match groups.find? fee.contract with
  | none => (.error (.unknownTransfer id), groups)
  | some g =>
    match g.find? ⟨fee.amount, id⟩ with
    | none => (.error (.unknownTransfer id), groups)
    | some t =>
      let shrunk := groups.insert fee.contract (g.erase ⟨fee.amount, id⟩)
      (.ok t, if g.erase ⟨fee.amount, id⟩ = ∅ then shrunk.erase fee.contract else shrunk)

/-- A group that is opened for a transfer is filled with it, for a place in a group that was not
there before is free. -/
theorem insertInPlace_groups (p : Pool) (t : Transfer) :
    insertInPlace p.groups t =
      match p.insert t with
      | .ok q => (.ok (), q.groups)
      | .error e => (.error e, p.groups) := by
  cases hgroup : p.groups.find? t.contract with
  | none =>
      have hfind : p.find? t.contract t.key = none := by
        rw [find?, group, hgroup]
        rfl
      have hfilled := p.groups_setGroup_of_ne t.contract (FeeGroup.insert_ne_empty ∅ t)
      simp [insertInPlace, insert, hgroup, hfind, place, group, hfilled,
        SortedMap.insert_insert]
  | some g =>
      have hfind : p.find? t.contract t.key = g.find? t.key := by
        rw [find?, group, hgroup]
        rfl
      have hfilled := p.groups_setGroup_of_ne t.contract (FeeGroup.insert_ne_empty g t)
      cases hplace : g.find? t.key with
      | none => simp [insertInPlace, insert, hgroup, hfind, hplace, place, group, hfilled]
      | some other => simp [insertInPlace, insert, hgroup, hfind, hplace]

theorem removeInPlace_groups (p : Pool) (fee : TokenAmount) (id : UInt64) :
    removeInPlace p.groups fee id =
      match p.remove fee id with
      | .ok (t, q) => (.ok t, q.groups)
      | .error e => (.error e, p.groups) := by
  cases hgroup : p.groups.find? fee.contract with
  | none =>
      have hfind : p.find? fee.contract ⟨fee.amount, id⟩ = none := by
        rw [find?, group, hgroup]
        rfl
      simp [removeInPlace, remove, hgroup, hfind]
  | some g =>
      have hfind : p.find? fee.contract ⟨fee.amount, id⟩ = g.find? ⟨fee.amount, id⟩ := by
        rw [find?, group, hgroup]
        rfl
      cases hplace : g.find? ⟨fee.amount, id⟩ with
      | none => simp [removeInPlace, remove, hgroup, hfind, hplace]
      | some t =>
          by_cases hlast : g.erase ⟨fee.amount, id⟩ = ∅
          · simp [removeInPlace, remove, hgroup, hfind, hplace, group, hlast,
              setGroup_empty_groups, SortedMap.erase_insert]
          · simp [removeInPlace, remove, hgroup, hfind, hplace, group, hlast,
              groups_setGroup_of_ne]

/-- From the empty pool on, all calls are answered as one map from places to transfers answers
them.  A call that is refused leaves the pool as it was, also where groups are opened and closed
in place. -/
theorem answers_as_one_map (calls : List PoolCall) :
    (∀ answers m, Runs ∅ calls answers m ↔
      (serveAll ∅ calls).1 = answers ∧ (serveAll ∅ calls).2.flat = m) ∧
    (∀ (p : Pool) call e, (p.serve call).1 = .refused e → (p.serve call).2 = p) ∧
    (∀ (p : Pool) t, insertInPlace p.groups t =
      match p.insert t with
      | .ok q => (.ok (), q.groups)
      | .error e => (.error e, p.groups)) ∧
    ∀ (p : Pool) fee id, removeInPlace p.groups fee id =
      match p.remove fee id with
      | .ok (t, q) => (.ok t, q.groups)
      | .error e => (.error e, p.groups) := by
  refine ⟨fun answers m => ?_, fun p call e hrefused => ?_, insertInPlace_groups,
    removeInPlace_groups⟩
  · rw [← flat_empty]
    exact runs_flat_iff
  · have hanswers := p.answers_serve call
    rw [hrefused] at hanswers
    apply flat_injective
    generalize (p.serve call).2.flat = m at hanswers ⊢
    cases hanswers <;> rfl

open Sample in
/-- Two transfers with one id are pending under two fees.  A third one on the lower fee is refused,
the id finds the higher fee, and the group goes away with the last transfer. -/
theorem answers_as_one_map_of_sample :
    let low := withdrawal.toTransfer 1 contract contract
    let high := { low with fee := ⟨contract, 9⟩ }
    Runs ∅
        [.insert low, .insert high, .insert low, .getById 1, .size, .remove low.fee 1,
          .contracts, .remove high.fee 1, .isEmpty]
        [.done, .done, .refused (.alreadyPending 1), .transfer high, .count 2, .transfer low,
          .contracts [contract], .transfer high, .flag true] ∅ ∧
      (((∅ : Pool).place contract low).serve (.insert low)).2 = (∅ : Pool).place contract low := by
  intro low high
  obtain ⟨hruns, hrefused, _⟩ := answers_as_one_map
    [.insert low, .insert high, .insert low, .getById 1, .size, .remove low.fee 1, .contracts,
      .remove high.fee 1, .isEmpty]
  exact ⟨(hruns _ _).2 ⟨by decide +kernel, by decide +kernel⟩,
    hrefused _ (.insert low) (.alreadyPending 1) (by decide +kernel)⟩

end Pool

end WithdrawalPool
