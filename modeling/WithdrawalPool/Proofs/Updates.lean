/-
Updates of a pool.  Adding a transfer and taking one out read and change one place each.  So
updates at different places can be made in any order, and each of the two kinds undoes the other.
-/
import WithdrawalPool.Pool.Fees
import WithdrawalPool.Proofs.Answers
import WithdrawalPool.Proofs.Traversal

namespace WithdrawalPool

universe u v

/-- What is put back where it was taken out leaves the map as it was. -/
theorem SortedMap.insert_erase {κ : Type u} {α : Type v} [Ord κ] [Std.LawfulEqOrd κ]
    [Std.TransOrd κ] {m : SortedMap κ α} {key : κ} {a : α} (h : m.find? key = some a) :
    (m.erase key).insert key a = m := by
  apply ext_find?
  intro other
  by_cases hother : other = key
  · rw [hother, find?_insert_self, h]
  · rw [find?_insert_of_ne _ hother, find?_erase_of_ne _ hother]

/-- A call that may change a pool. -/
inductive Update where
  | insert (t : Transfer)
  | remove (fee : TokenAmount) (id : UInt64)
deriving DecidableEq

namespace Update

def call : Update → PoolCall
  | insert t => .insert t
  | remove fee id => .remove fee id

/-- The place that the update is about. -/
def place : Update → Place
  | insert t => t.place
  | remove fee id => ⟨fee.contract, ⟨fee.amount, id⟩⟩

/-- The answer to the update, by what its place holds, and what the place holds after it. -/
def act : Update → Option Transfer → PoolAnswer × Option Transfer
  | insert t, none => (.done, some t)
  | insert t, some other => (.refused (.alreadyPending t.id), some other)
  | remove _ _, some t => (.transfer t, none)
  | remove _ id, none => (.refused (.unknownTransfer id), none)

end Update

namespace FlatPool

/-- An update reads and changes its own place only. -/
structure Acts (m : FlatPool) (u : Update) (answer : PoolAnswer) (m' : FlatPool) : Prop where
  answer : answer = (u.act (m.find? u.place)).1
  self : m'.find? u.place = (u.act (m.find? u.place)).2
  other : ∀ place, place ≠ u.place → m'.find? place = m.find? place

theorem Answers.acts {m m' : FlatPool} {u : Update} {answer : PoolAnswer}
    (h : Answers m u.call answer m') : Acts m u answer m' := by
  cases u with
  | insert t =>
      cases h with
      | inserted hfree =>
          refine ⟨?_, ?_, fun place hplace => SortedMap.find?_insert_of_ne m hplace t⟩
          · rw [Update.place, hfree]
            rfl
          · rw [Update.place, hfree, SortedMap.find?_insert_self]
            rfl
      | taken htaken =>
          refine ⟨?_, ?_, fun _ _ => rfl⟩
          · rw [Update.place, htaken]
            rfl
          · rw [Update.place, htaken]
            rfl
  | remove fee id =>
      cases h with
      | removed hfound =>
          refine ⟨?_, ?_, fun place hplace => SortedMap.find?_erase_of_ne m hplace⟩
          · rw [Update.place, hfound]
            rfl
          · rw [Update.place, hfound, SortedMap.find?_erase_self]
            rfl
      | notRemoved habsent =>
          refine ⟨?_, ?_, fun _ _ => rfl⟩
          · rw [Update.place, habsent]
            rfl
          · rw [Update.place, habsent]
            rfl

end FlatPool

namespace Pool

theorem acts_serve (p : Pool) (u : Update) :
    FlatPool.Acts p.flat u (p.serve u.call).1 (p.serve u.call).2.flat :=
  (p.answers_serve u.call).acts

theorem serveAll_cons (p : Pool) (call : PoolCall) (rest : List PoolCall) :
    p.serveAll (call :: rest) =
      ((p.serve call).1 :: ((p.serve call).2.serveAll rest).1,
        ((p.serve call).2.serveAll rest).2) := rfl

/-- Updates at different places do not notice each other: each is answered, and changes its place,
as if it were the only one. -/
theorem serveAll_updates {updates : List Update} (h : (updates.map Update.place).Nodup)
    (p : Pool) :
    (p.serveAll (updates.map Update.call)).1 =
        updates.map (fun u => (u.act (p.flat.find? u.place)).1) ∧
      (∀ u ∈ updates, (p.serveAll (updates.map Update.call)).2.flat.find? u.place =
        (u.act (p.flat.find? u.place)).2) ∧
      ∀ place, place ∉ updates.map Update.place →
        (p.serveAll (updates.map Update.call)).2.flat.find? place = p.flat.find? place := by
  induction updates generalizing p with
  | nil => exact ⟨rfl, fun u hu => absurd hu List.not_mem_nil, fun _ _ => rfl⟩
  | cons first rest ih =>
      rw [List.map_cons, List.nodup_cons] at h
      obtain ⟨hfirst, hrest⟩ := h
      have hacts := p.acts_serve first
      obtain ⟨hanswers, hself, hother⟩ := ih hrest (p.serve first.call).2
      -- The places of the later updates are those of the pool before the first.
      have hunseen : ∀ u ∈ rest, (p.serve first.call).2.flat.find? u.place =
          p.flat.find? u.place := by
        intro u hu
        apply hacts.other
        intro heq
        exact hfirst (heq ▸ List.mem_map_of_mem hu)
      rw [List.map_cons, serveAll_cons]
      refine ⟨?_, ?_, ?_⟩
      · have hsame : rest.map (fun u => (u.act ((p.serve first.call).2.flat.find? u.place)).1) =
            rest.map fun u => (u.act (p.flat.find? u.place)).1 := by
          apply List.map_congr_left
          intro u hu
          rw [hunseen u hu]
        rw [List.map_cons, hacts.answer, hanswers, hsame]
      · intro u hu
        rcases List.mem_cons.1 hu with rfl | hu
        · rw [hother _ hfirst]
          exact hacts.self
        · rw [hself u hu, hunseen u hu]
      · intro place hplace
        rw [List.map_cons, List.mem_cons, not_or] at hplace
        rw [hother place hplace.2]
        exact hacts.other place hplace.1

/-- Updates at different places leave one pool behind in any order. -/
theorem serveAll_perm {updates others : List Update} (hperm : updates.Perm others)
    (h : (updates.map Update.place).Nodup) (p : Pool) :
    (p.serveAll (updates.map Update.call)).2 = (p.serveAll (others.map Update.call)).2 := by
  have hplaces := hperm.map Update.place
  obtain ⟨_, hself, hother⟩ := serveAll_updates h p
  obtain ⟨_, hself', hother'⟩ := serveAll_updates (hplaces.nodup_iff.1 h) p
  apply flat_injective
  apply SortedMap.ext_find?
  intro place
  by_cases hplace : place ∈ updates.map Update.place
  · obtain ⟨u, hu, rfl⟩ := List.mem_map.1 hplace
    rw [hself u hu, hself' u (hperm.subset hu)]
  · rw [hother place hplace, hother' place fun hmem => hplace (hplaces.mem_iff.2 hmem)]

theorem exists_serveAll_pair {u v : Update} (hne : u.place ≠ v.place) (p : Pool) :
    ∃ x y q, p.serveAll [u.call, v.call] = ([x, y], q) ∧
      p.serveAll [v.call, u.call] = ([y, x], q) := by
  have hplaces : ([u, v].map Update.place).Nodup := by simpa using hne
  have hplaces' : ([v, u].map Update.place).Nodup := by simpa using hne.symm
  have hanswers := (serveAll_updates hplaces p).1
  have hanswers' := (serveAll_updates hplaces' p).1
  have hpool := serveAll_perm (List.Perm.swap v u []) hplaces p
  exact ⟨_, _, _, Prod.ext hanswers rfl, Prod.ext hanswers' hpool.symm⟩

/-- Transfers that belong in different places are added alike in any order. -/
theorem serveAll_insert_perm {ts us : List Transfer} (hperm : ts.Perm us)
    (h : (ts.map Transfer.place).Nodup) (p : Pool) :
    (ts.zip (p.serveAll (ts.map .insert)).1).Perm (us.zip (p.serveAll (us.map .insert)).1) ∧
      (p.serveAll (ts.map .insert)).2 = (p.serveAll (us.map .insert)).2 := by
  have hcalls (l : List Transfer) :
      (l.map Update.insert).map Update.call = l.map PoolCall.insert := by
    rw [List.map_map]
    rfl
  have hplaces {l : List Transfer} (hl : (l.map Transfer.place).Nodup) :
      ((l.map Update.insert).map Update.place).Nodup := by
    rwa [List.map_map]
  have hanswers {l : List Transfer} (hl : (l.map Transfer.place).Nodup) :
      l.zip (p.serveAll (l.map .insert)).1 =
        l.map fun t => (t, ((Update.insert t).act (p.flat.find? t.place)).1) := by
    have hone := (serveAll_updates (hplaces hl) p).1
    rw [hcalls, List.map_map] at hone
    have hself : (l.map id).zip (l.map fun t => ((Update.insert t).act (p.flat.find? t.place)).1) =
        l.map fun t => (t, ((Update.insert t).act (p.flat.find? t.place)).1) := List.zip_map'
    rw [List.map_id] at hself
    rw [hone]
    exact hself
  constructor
  · rw [hanswers h, hanswers ((hperm.map _).nodup_iff.1 h)]
    exact hperm.map _
  · have hpool := serveAll_perm (hperm.map Update.insert) (hplaces h) p
    rwa [hcalls, hcalls] at hpool

theorem Filed.serve {p : Pool} (h : p.Filed) (call : PoolCall) : (p.serve call).2.Filed := by
  cases call with
  | insert t =>
      rw [Pool.serve]
      cases hinsert : p.insert t with
      | ok q => exact h.insert hinsert
      | error e => exact h
  | remove fee id =>
      rw [Pool.serve]
      cases hremove : p.remove fee id with
      | ok pair => exact h.remove hremove
      | error e => exact h
  | get => exact h
  | getById => exact h
  | size => exact h
  | isEmpty => exact h
  | contracts => exact h

theorem Filed.serveAll {p : Pool} (h : p.Filed) (calls : List PoolCall) :
    (p.serveAll calls).2.Filed := by
  induction calls generalizing p with
  | nil => exact h
  | cons call rest ih => exact ih (h.serve call)

/-- A transfer that is taken out can be put back, and the pool is what it was. -/
theorem Filed.insert_of_remove {p q : Pool} (h : p.Filed) {fee : TokenAmount} {id : UInt64}
    {t : Transfer} (hremove : p.remove fee id = .ok (t, q)) : q.insert t = .ok p := by
  obtain ⟨rfl, rfl⟩ := h.fee_of_remove hremove
  have hfound : p.flat.find? t.place = some t := by
    rw [find?_flat]
    exact (remove_eq_ok_iff.1 hremove).1
  refine insert_eq_ok_iff.2 ⟨find?_of_remove_eq_ok hremove, flat_injective ?_⟩
  rw [flat_place, flat_remove hremove]
  exact (SortedMap.insert_erase hfound).symm

/-- A transfer that was added can be taken out again, and the pool is what it was. -/
theorem remove_of_insert {p q : Pool} {t : Transfer} (hinsert : p.insert t = .ok q) :
    q.remove t.fee t.id = .ok (t, p) := by
  obtain ⟨hfree, rfl⟩ := insert_eq_ok_iff.1 hinsert
  exact remove_place hfree

/-- In every pool that additions and removals have built, two updates at different places have the
same answers and leave the same pool behind in either order.  So transfers that belong in different
places can be added in any order: each is answered alike, and nothing that can be read off the
pools tells them apart.  An addition is undone by a removal, and a removal by an addition. -/
theorem updates_commute_and_invert (history : List Update) (p : Pool)
    (h : (serveAll ∅ (history.map Update.call)).2 = p) :
    (∀ u v : Update, u.place ≠ v.place → ∃ x y q,
        p.serveAll [u.call, v.call] = ([x, y], q) ∧ p.serveAll [v.call, u.call] = ([y, x], q)) ∧
      (∀ ts us : List Transfer, ts.Perm us → (ts.map Transfer.place).Nodup →
        ∀ answers answers' q r, p.serveAll (ts.map .insert) = (answers, q) →
          p.serveAll (us.map .insert) = (answers', r) →
          (ts.zip answers).Perm (us.zip answers') ∧ q = r ∧ q.walk .all = r.walk .all ∧
            q.contracts = r.contracts ∧
            (∀ contract cap, q.feeSummary contract cap = r.feeSummary contract cap) ∧
            ∀ cap, q.feeSummaries cap = r.feeSummaries cap) ∧
      (∀ t q, p.insert t = .ok q → q.remove t.fee t.id = .ok (t, p)) ∧
      ∀ fee id t q, p.remove fee id = .ok (t, q) → q.insert t = .ok p := by
  have hfiled : p.Filed := h ▸ filed_empty.serveAll _
  refine ⟨fun u v hne => exists_serveAll_pair hne p, ?_, fun t q => remove_of_insert,
    fun fee id t q => hfiled.insert_of_remove⟩
  intro ts us hperm hplaces answers answers' q r hq hr
  obtain ⟨hanswers, hpool⟩ := serveAll_insert_perm hperm hplaces p
  rw [hq, hr] at hanswers hpool
  obtain rfl : q = r := hpool
  exact ⟨hanswers, rfl, rfl, rfl, fun _ _ => rfl, fun _ => rfl⟩

open Sample in
/-- Where the lower fee is pending, the higher one can be added before or after the lower is taken
out, and each of the two steps can be undone. -/
theorem updates_commute_and_invert_of_sample :
    (serveAll ∅ [.insert low]).2 = (∅ : Pool).place contract low ∧
      (Update.insert high).place ≠ (Update.remove low.fee 1).place ∧
      (∃ q, ((∅ : Pool).place contract low).serveAll [.insert high, .remove low.fee 1] =
          ([.done, .transfer low], q) ∧
        ((∅ : Pool).place contract low).serveAll [.remove low.fee 1, .insert high] =
          ([.transfer low, .done], q)) ∧
      ((∅ : Pool).place contract low).insert high = .ok both ∧
      both.remove high.fee 2 = .ok (high, (∅ : Pool).place contract low) := by
  have hbuilt : (serveAll ∅ [.insert low]).2 = (∅ : Pool).place contract low := by decide +kernel
  have hplaces : (Update.insert high).place ≠ (Update.remove low.fee 1).place := by decide
  have hadded : ((∅ : Pool).place contract low).insert high = .ok both :=
    insert_eq_ok_iff.2 ⟨by decide +kernel, rfl⟩
  obtain ⟨hcommute, _, hundone, _⟩ := updates_commute_and_invert [.insert low] _ hbuilt
  obtain ⟨x, y, q, hfirst, hsecond⟩ := hcommute _ _ hplaces
  have hanswers : (((∅ : Pool).place contract low).serveAll
      [.insert high, .remove low.fee 1]).1 = [.done, .transfer low] := by decide +kernel
  have hxy : [x, y] = [.done, .transfer low] := (congrArg Prod.fst hfirst).symm.trans hanswers
  obtain ⟨rfl, rfl⟩ : x = .done ∧ y = .transfer low := by simpa using hxy
  exact ⟨hbuilt, hplaces, ⟨q, hfirst, hsecond⟩, hadded, hundone high both hadded⟩

end Pool

end WithdrawalPool
