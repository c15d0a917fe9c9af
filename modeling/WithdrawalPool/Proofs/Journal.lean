/-
The log of events beside the calls that it tells of.  A submission that succeeds is logged, and so
is a cancellation that succeeds, and nothing else is.  A transfer can also leave without a word, so
it takes the log and the calls to tell what is pending.
-/
import WithdrawalPool.Proofs.Issuance

namespace WithdrawalPool

universe u v

theorem filterMap_append_singleton {α : Type u} {β : Type v} (f : α → Option β) (l : List α)
    (a : α) : (l ++ [a]).filterMap f = l.filterMap f ++ (f a).toList := by
  simp [List.filterMap_eq_flatMap_toList]

theorem filterMap_sublist_filterMap {α : Type u} {β : Type v} {f g : α → Option β}
    (h : ∀ a b, f a = some b → g a = some b) (l : List α) :
    (l.filterMap f).Sublist (l.filterMap g) := by
  induction l with
  | nil => exact .slnil
  | cons a l ih =>
      cases hf : f a with
      | none =>
          rw [List.filterMap_cons_none hf]
          exact ih.trans ((List.sublist_cons_self a l).filterMap g)
      | some b =>
          rw [List.filterMap_cons_some hf, List.filterMap_cons_some (h a b hf)]
          exact ih.cons_cons b

namespace Event

def receivedId : Event → Option UInt64
  | .received notice => some notice.outgoingTxId
  | .cancelled _ => none

def cancelledId : Event → Option UInt64
  | .received _ => none
  | .cancelled notice => some notice.outgoingTxId

end Event

/-- A call that was made, with what it answered. -/
inductive Reply where
  | submit (env : Env) (result : Except PoolError UInt64)
  | cancel (env : Env) (id : UInt64) (result : Except PoolError Unit)
  | remove (id : UInt64) (result : Except PoolError Transfer)

namespace Reply

/-- The id that a submission returned. -/
def submittedId : Reply → Option UInt64
  | .submit _ (.ok id) => some id
  | _ => none

/-- The id of a cancellation that succeeded. -/
def cancelledId : Reply → Option UInt64
  | .cancel _ id (.ok ()) => some id
  | _ => none

/-- The id of a cancellation that the keeper of the coins refused to pay. -/
def unpaidId : Reply → Option UInt64
  | .cancel _ id (.error (.ledger _)) => some id
  | _ => none

/-- The id of a removal that succeeded. -/
def removedId : Reply → Option UInt64
  | .remove id (.ok _) => some id
  | _ => none

/-- The id that left the pool, in whatever way. -/
def departedId (r : Reply) : Option UInt64 := r.cancelledId <|> r.removedId <|> r.unpaidId

/-- What the log says of the call. -/
def notice : Reply → Option Event
  | .submit env (.ok id) =>
    some (.received ⟨env.config.bridgeContract, env.config.bridgeChainId, id, id⟩)
  | .cancel env id (.ok ()) =>
    some (.cancelled ⟨env.config.bridgeContract, env.config.bridgeChainId, id⟩)
  | _ => none

theorem receivedId_notice (r : Reply) : r.notice.bind Event.receivedId = r.submittedId := by
  cases r with
  | submit env result => cases result <;> rfl
  | cancel env id result => cases result <;> rfl
  | remove id result => rfl

theorem cancelledId_notice (r : Reply) : r.notice.bind Event.cancelledId = r.cancelledId := by
  cases r with
  | submit env result => cases result <;> rfl
  | cancel env id result => cases result <;> rfl
  | remove id result => rfl

theorem nonce_of_notice {r : Reply} {n : ReceiptNotice} (h : r.notice = some (.received n)) :
    n.nonce = n.outgoingTxId := by
  unfold notice at h
  split at h
  · cases h
    rfl
  · cases h
  · cases h

/-- No call is answered in two of these ways. -/
theorem departedId_eq_some_iff {r : Reply} {id : UInt64} :
    r.departedId = some id ↔
      r.cancelledId = some id ∨ r.removedId = some id ∨ r.unpaidId = some id := by
  cases r with
  | submit env result => simp [departedId, cancelledId, removedId, unpaidId]
  | cancel env other result =>
      cases result with
      | ok => simp [departedId, cancelledId, removedId, unpaidId]
      | error e => simp [departedId, cancelledId, removedId]
  | remove other result => simp [departedId, cancelledId, unpaidId]

theorem mem_departedIds_iff {replies : List Reply} {id : UInt64} :
    id ∈ replies.filterMap departedId ↔
      id ∈ replies.filterMap cancelledId ∨ id ∈ replies.filterMap removedId ∨
        id ∈ replies.filterMap unpaidId := by
  simp only [List.mem_filterMap, departedId_eq_some_iff, and_or_left, exists_or]

end Reply

/-- The ids of the pending transfers. -/
def Pool.pendingIds (p : Pool) : List UInt64 := (p.walk .all).map Transfer.id

theorem Pool.pendingIds_insert_perm {p p' : Pool} {t : Transfer} (h : p.insert t = .ok p') :
    p'.pendingIds.Perm (p.pendingIds ++ [t.id]) := by
  obtain ⟨hfree, rfl⟩ := insert_eq_ok_iff.1 h
  exact ((walk_place_perm hfree).map Transfer.id).trans (List.perm_append_singleton _ _).symm

theorem Pool.pendingIds_remove_perm {p p' : Pool} {fee : TokenAmount} {id : UInt64}
    {t : Transfer} (h : p.remove fee id = .ok (t, p')) :
    (p'.pendingIds ++ [id]).Perm p.pendingIds := by
  have hid : t.id = id := congrArg FeeKey.id (key_of_remove_eq_ok h)
  subst hid
  exact (List.perm_append_singleton _ _).trans ((walk_remove_perm h).map Transfer.id).symm

/-- A store with its log of events. -/
structure Journal extends Store where
  events : List Event := []

/-- The part of a state that no collaborator owns, and the log. -/
def State.journal {L R : Type} (s : State L R) : Journal := ⟨s.store, s.events⟩

namespace Journal

/-- One call, with any collaborators in any state. -/
inductive Step (before : Journal) : Reply → Journal → Prop
  | submit {L R : Type} [Custody L] [Resolver R] {env : Env} {w : Withdrawal} {s s' : State L R}
      {result : Except PoolError UInt64} (hs : s.journal = before)
      (hsubmit : (WithdrawalPool.submit env w).runFrom s = (result, s')) :
      Step before (.submit env result) s'.journal
  | cancel {L R : Type} [Custody L] [Resolver R] {env : Env} {id : UInt64}
      {requester : AccountId} {s s' : State L R} {result : Except PoolError Unit}
      (hs : s.journal = before)
      (hcancel : (WithdrawalPool.cancel env id requester).runFrom s = (result, s')) :
      Step before (.cancel env id result) s'.journal
  | removed {fee : TokenAmount} {id : UInt64} {t : Transfer} {pool : Pool}
      (hremove : before.pool.remove fee id = .ok (t, pool)) :
      Step before (.remove id (.ok t)) { before with pool := pool }
  | notRemoved {fee : TokenAmount} {id : UInt64} {e : PoolError}
      (hremove : before.pool.remove fee id = .error e) :
      Step before (.remove id (.error e)) before

/-- A run of calls, with what they answered, in the order of the calls.  Nothing is rolled back:
what a call that fails leaves behind is what the next call finds. -/
inductive Runs (start : Journal) : List Reply → Journal → Prop
  | start : Runs start [] start
  | step {replies : List Reply} {reply : Reply} {j j' : Journal} (hruns : Runs start replies j)
      (hstep : Step j reply j') : Runs start (replies ++ [reply]) j'

variable {start j j' : Journal} {reply : Reply} {replies : List Reply}

theorem Step.events_eq (h : Step j reply j') : j'.events = j.events ++ reply.notice.toList := by
  have hnone (events : List Event) : events = events ++ [] := (List.append_nil events).symm
  cases h with
  | submit hs hsubmit =>
      subst hs
      cases submitEffect_of_runFrom hsubmit with
      | refused => exact hnone _
      | unresolved => exact hnone _
      | exhausted => exact hnone _
      | notLocked => exact hnone _
      | notBurned => exact hnone _
      | duplicate => exact hnone _
      | recorded => rfl
  | cancel hs hcancel =>
      subst hs
      cases cancelEffect_of_runFrom hcancel with
      | refused => exact hnone _
      | notFound => exact hnone _
      | senderMissing => exact hnone _
      | unauthorized => exact hnone _
      | inconsistent => exact hnone _
      | unresolved => exact hnone _
      | misfiled => exact hnone _
      | refundRefused => exact hnone _
      | refunded => rfl
  | removed => exact hnone _
  | notRemoved => exact hnone _

/-- The id that a call returned joins the pending ones, and the id that it let go leaves them. -/
theorem Step.pendingIds_perm (h : Step j reply j') :
    (j'.pool.pendingIds ++ reply.departedId.toList).Perm
      (j.pool.pendingIds ++ reply.submittedId.toList) := by
  have hremoved {p p' : Pool} {fee : TokenAmount} {id : UInt64} {t : Transfer}
      (hremove : p.remove fee id = .ok (t, p')) :
      (p'.pendingIds ++ [id]).Perm (p.pendingIds ++ []) := by
    rw [List.append_nil]
    exact Pool.pendingIds_remove_perm hremove
  cases h with
  | submit hs hsubmit =>
      subst hs
      cases submitEffect_of_runFrom hsubmit with
      | refused => exact .refl _
      | unresolved => exact .refl _
      | exhausted => exact .refl _
      | notLocked => exact .refl _
      | notBurned => exact .refl _
      | duplicate => exact .refl _
      | recorded _ _ hinsert =>
          have hperm := Pool.pendingIds_insert_perm hinsert
          rwa [← List.append_nil (Pool.pendingIds _)] at hperm
  | cancel hs hcancel =>
      subst hs
      cases cancelEffect_of_runFrom hcancel with
      | refused => exact .refl _
      | notFound => exact .refl _
      | senderMissing => exact .refl _
      | unauthorized => exact .refl _
      | inconsistent => exact .refl _
      | unresolved => exact .refl _
      | misfiled => exact .refl _
      | refundRefused _ hremove => exact hremoved hremove
      | refunded _ hremove => exact hremoved hremove
  | removed hremove => exact hremoved hremove
  | notRemoved => exact .refl _

theorem Step.issues {ids : List UInt64} (h : Step j reply j')
    (hissues : Store.Issues start.toStore ids j.toStore) :
    Store.Issues start.toStore (ids ++ reply.submittedId.toList) j'.toStore := by
  have hnone {s : Store} (hissues : Store.Issues start.toStore ids s) :
      Store.Issues start.toStore (ids ++ []) s := by
    rwa [List.append_nil]
  cases h with
  | @submit L R _ _ env w s s' result hs hsubmit =>
      subst hs
      cases result with
      | ok id => exact hissues.submitted hsubmit
      | error e => exact hnone (hissues.notSubmitted hsubmit)
  | cancel hs hcancel =>
      subst hs
      exact hnone (hissues.cancel hcancel)
  | removed hremove => exact hnone (hissues.removed hremove)
  | notRemoved hremove => exact hnone (hissues.notRemoved hremove)

/-- The log is what the calls answered, and nothing else. -/
theorem Runs.events_eq (h : Runs start replies j) :
    j.events = start.events ++ replies.filterMap Reply.notice := by
  induction h with
  | start => exact (List.append_nil _).symm
  | step _ hstep ih =>
      rw [hstep.events_eq, ih, filterMap_append_singleton, List.append_assoc]

theorem Runs.pendingIds_perm (h : Runs start replies j) :
    (j.pool.pendingIds ++ replies.filterMap Reply.departedId).Perm
      (start.pool.pendingIds ++ replies.filterMap Reply.submittedId) := by
  have hswap (p q r : List UInt64) : (p ++ (q ++ r)).Perm (p ++ r ++ q) := by
    rw [List.append_assoc]
    exact List.perm_append_comm.append_left p
  induction h with
  | start => exact .refl _
  | @step replies reply j j' _ hstep ih =>
      rw [filterMap_append_singleton, filterMap_append_singleton]
      -- The ids of the last call go in front of those that left before, where the step speaks
      -- of them.
      calc
        List.Perm _ (j'.pool.pendingIds ++ reply.departedId.toList ++
            replies.filterMap Reply.departedId) := hswap _ _ _
        List.Perm _ (j.pool.pendingIds ++ reply.submittedId.toList ++
            replies.filterMap Reply.departedId) := hstep.pendingIds_perm.append_right _
        List.Perm _ (j.pool.pendingIds ++ (replies.filterMap Reply.departedId ++
            reply.submittedId.toList)) := (hswap _ _ _).symm
        List.Perm _ (start.pool.pendingIds ++ (replies.filterMap Reply.submittedId ++
            reply.submittedId.toList)) := by
          rw [← List.append_assoc, ← List.append_assoc]
          exact ih.append_right _

theorem Runs.issues (h : Runs start replies j) :
    Store.Issues start.toStore (replies.filterMap Reply.submittedId) j.toStore := by
  induction h with
  | start => exact .start
  | step _ hstep ih =>
      rw [filterMap_append_singleton]
      exact hstep.issues ih

/-- However a log that was empty at first begins, it was so at some time. -/
theorem Runs.exists_of_prefix (h : Runs start replies j) (hstart : start.events = [])
    {log : List Event} (hlog : log <+: j.events) :
    ∃ replies' j', Runs start replies' j' ∧ j'.events = log := by
  induction h with
  | start =>
      rw [hstart, List.prefix_nil] at hlog
      exact ⟨[], start, .start, hstart.trans hlog.symm⟩
  | @step replies reply j j' hruns hstep ih =>
      -- A call logs at most one event, so a log that ends within a step ends at one of its ends.
      have hevents := hstep.events_eq
      cases hnotice : reply.notice with
      | none =>
          rw [hnotice, Option.toList_none, List.append_nil] at hevents
          exact ih (hevents ▸ hlog)
      | some event =>
          rw [hnotice, Option.toList_some] at hevents
          rw [hevents, List.prefix_concat_iff, ← hevents] at hlog
          rcases hlog with hlog | hlog
          · exact ⟨_, j', hruns.step hstep, hlog.symm⟩
          · exact ih hlog

section

variable {counter : IdCounter} (h : Runs ⟨⟨∅, counter⟩, []⟩ replies j)
include h

theorem Runs.receivedIds_eq :
    j.events.filterMap Event.receivedId = replies.filterMap Reply.submittedId := by
  rw [h.events_eq, List.nil_append, List.filterMap_filterMap]
  simp only [Reply.receivedId_notice]

theorem Runs.cancelledIds_eq :
    j.events.filterMap Event.cancelledId = replies.filterMap Reply.cancelledId := by
  rw [h.events_eq, List.nil_append, List.filterMap_filterMap]
  simp only [Reply.cancelledId_notice]

theorem Runs.submittedIds_nodup : (replies.filterMap Reply.submittedId).Nodup :=
  h.issues.nodup

/-- An id that a submission returned is pending or has left, and has left only once. -/
theorem Runs.submittedIds_perm :
    (j.pool.pendingIds ++ replies.filterMap Reply.departedId).Perm
      (replies.filterMap Reply.submittedId) :=
  h.pendingIds_perm

theorem Runs.cancelledIds_nodup : (j.events.filterMap Event.cancelledId).Nodup := by
  have hnodup := h.submittedIds_perm.nodup_iff.2 h.submittedIds_nodup
  have hdeparted := (List.nodup_append.1 hnodup).2.1
  rw [h.cancelledIds_eq]
  apply hdeparted.sublist (filterMap_sublist_filterMap _ replies)
  intro r id hcancelled
  exact Reply.departedId_eq_some_iff.2 (Or.inl hcancelled)

theorem Runs.cancelledIds_subset :
    j.events.filterMap Event.cancelledId ⊆ j.events.filterMap Event.receivedId := by
  intro id hid
  rw [h.cancelledIds_eq] at hid
  have hdeparted : id ∈ replies.filterMap Reply.departedId :=
    Reply.mem_departedIds_iff.2 (Or.inl hid)
  rw [h.receivedIds_eq]
  exact h.submittedIds_perm.subset (List.mem_append_right _ hdeparted)

theorem Runs.mem_pendingIds_iff {id : UInt64} :
    id ∈ j.pool.pendingIds ↔
      id ∈ replies.filterMap Reply.submittedId ∧ id ∉ replies.filterMap Reply.departedId := by
  have hnodup := h.submittedIds_perm.nodup_iff.2 h.submittedIds_nodup
  rw [← h.submittedIds_perm.mem_iff, List.mem_append]
  constructor
  · intro hpending
    exact ⟨Or.inl hpending, (List.disjoint_of_nodup_append hnodup) hpending⟩
  · rintro ⟨hid, hstays⟩
    exact hid.resolve_right hstays

end

/-- From an empty pool and an empty log on, the log tells the ids that submissions returned and
those whose cancellation succeeded, each id once and its receipt first.  What is pending was
received, and was not cancelled, nor removed, nor left unpaid. -/
theorem log_agrees_with_replies {counter : IdCounter} (h : Runs ⟨⟨∅, counter⟩, []⟩ replies j) :
    (j.events.filterMap Event.receivedId = replies.filterMap Reply.submittedId ∧
      (j.events.filterMap Event.receivedId).Nodup ∧
      ∀ n, .received n ∈ j.events → n.nonce = n.outgoingTxId) ∧
    (j.events.filterMap Event.cancelledId = replies.filterMap Reply.cancelledId ∧
      (j.events.filterMap Event.cancelledId).Nodup ∧
      ∀ before n after, j.events = before ++ .cancelled n :: after →
        n.outgoingTxId ∈ before.filterMap Event.receivedId) ∧
    ∀ id, (∃ t ∈ j.pool, t.id = id) ↔
      id ∈ j.events.filterMap Event.receivedId ∧ id ∉ j.events.filterMap Event.cancelledId ∧
        id ∉ replies.filterMap Reply.removedId ∧ id ∉ replies.filterMap Reply.unpaidId := by
  refine ⟨⟨h.receivedIds_eq, h.receivedIds_eq ▸ h.submittedIds_nodup, ?_⟩,
    ⟨h.cancelledIds_eq, h.cancelledIds_nodup, ?_⟩, ?_⟩
  · intro n hn
    rw [h.events_eq, List.nil_append] at hn
    obtain ⟨r, _, hnotice⟩ := List.mem_filterMap.1 hn
    exact Reply.nonce_of_notice hnotice
  · intro before n after hevents
    have hlog : before ++ [.cancelled n] <+: j.events := ⟨after, by simp [hevents]⟩
    obtain ⟨replies', j', hruns, hevents'⟩ := h.exists_of_prefix rfl hlog
    have hmem : n.outgoingTxId ∈ j'.events.filterMap Event.cancelledId := by
      rw [hevents', filterMap_append_singleton]
      exact List.mem_append_right _ List.mem_cons_self
    have hearlier := hruns.cancelledIds_subset hmem
    rwa [hevents', filterMap_append_singleton, Event.receivedId, Option.toList_none,
      List.append_nil] at hearlier
  · intro id
    rw [h.receivedIds_eq, h.cancelledIds_eq, ← not_or, ← not_or, ← Reply.mem_departedIds_iff,
      ← h.mem_pendingIds_iff]
    exact List.mem_map.symm

open Sample in
/-- The sample withdrawal is received and cancelled, in this order, and is no longer pending. -/
theorem log_agrees_with_replies_of_sample :
    ∃ j, Runs ⟨⟨∅, {}⟩, []⟩ [.submit env (.ok 1), .cancel env 1 (.ok ())] j ∧
      j.events = [.received ⟨none, 0, 1, 1⟩, .cancelled ⟨none, 0, 1⟩] ∧
      1 ∈ [Event.received ⟨none, 0, 1, 1⟩].filterMap Event.receivedId ∧
      ¬ ∃ t ∈ j.pool, t.id = 1 := by
  have hsubmit : (submit env withdrawal).runFrom funded = (.ok 1, pending) := by rfl
  have hcancel : (cancel env 1 alice).runFrom pending =
      (.ok (), ((cancel env 1 alice).runFrom pending).2) := by rfl
  have hruns := (Runs.start.step (.submit (s := funded) rfl hsubmit)).step (.cancel rfl hcancel)
  have hevents : ((cancel env 1 alice).runFrom pending).2.journal.events =
      [.received ⟨none, 0, 1, 1⟩, .cancelled ⟨none, 0, 1⟩] := by rfl
  obtain ⟨_, ⟨_, _, hordered⟩, hpending⟩ := log_agrees_with_replies hruns
  refine ⟨_, hruns, hevents, hordered [.received ⟨none, 0, 1, 1⟩] ⟨none, 0, 1⟩ [] hevents, ?_⟩
  intro hstays
  have hkept := ((hpending 1).1 hstays).2.1
  rw [hevents] at hkept
  exact hkept (by decide)

end Journal

end WithdrawalPool
