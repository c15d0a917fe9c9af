/-
A transfer leaves the pool once, by a cancellation or by a removal.  From then on every
cancellation of its id finds nothing, so nothing is paid out twice.
-/
import WithdrawalPool.Proofs.Store

namespace WithdrawalPool

/-- Where no transfer has the id, a cancellation finds nothing and changes nothing. -/
theorem cancel_of_absent {L R : Type} [Custody L] [Resolver R] {env : Env} {id : UInt64}
    {requester : AccountId} {s : State L R} (harguments : CancelArguments env id requester)
    (habsent : ∀ t ∈ s.pool, t.id ≠ id) :
    (cancel env id requester).runFrom s = (.error (.unknownTransfer id), s) := by
  have hfound {t : Transfer} (hget : s.pool.getById id = .ok t) : False :=
    habsent t (Pool.getById_eq_ok hget).1 (Pool.getById_eq_ok hget).2
  have heffect := cancel_effect env id requester s
  generalize (cancel env id requester).runFrom s = outcome at heffect ⊢
  obtain ⟨result, after⟩ := outcome
  cases heffect with
  | refused hnot => exact absurd harguments hnot
  | notFound => rfl
  | senderMissing _ hget => exact (hfound hget).elim
  | unauthorized _ hget => exact (hfound hget).elim
  | inconsistent _ hget => exact (hfound hget).elim
  | unresolved _ hget => exact (hfound hget).elim
  | misfiled hclaims => exact (hfound hclaims.found).elim
  | refundRefused hclaims => exact (hfound hclaims.found).elim
  | refunded hclaims => exact (hfound hclaims.found).elim

namespace Store

variable {first : UInt64} {s s' : Store} {call : Call} {t : Transfer}

/-- Only a cancellation by the sender or a removal takes a transfer out. -/
theorem Sound.call_of_departure (h : s.Sound first) (hstep : Step s call s') (ht : t ∈ s.pool)
    (hgone : t ∉ s'.pool) :
    (∃ env, call = .cancel env t.id t.sender) ∨ call = .remove t.fee t.id := by
  cases h.change_of_step hstep with
  | kept => exact absurd ht hgone
  | @recorded env w destination contract next haccepted hnext =>
      have hfree := h.find?_peek contract w.fee.amount
      exact absurd ((Pool.mem_place_iff hfree).2 (Or.inr ht)) hgone
  | cancelled hremove =>
      rcases (Pool.mem_remove_iff hremove).1 ht with rfl | hstays
      · exact Or.inl ⟨_, rfl⟩
      · exact absurd hstays hgone
  | removed hremove =>
      rcases (Pool.mem_remove_iff hremove).1 ht with rfl | hstays
      · exact Or.inr rfl
      · exact absurd hstays hgone

/-- Once a transfer has left, no transfer with its id is pending again. -/
theorem Sound.id_ne_of_departure (h : s.Sound first) (hstep : Step s call s') (ht : t ∈ s.pool)
    (hgone : t ∉ s'.pool) {later : Store} (hleads : Leads s' later) {u : Transfer}
    (hu : u ∈ later.pool) : u.id ≠ t.id := by
  intro hid
  have hlt : u.id < s.ids.peek := by
    rw [hid]
    exact (h.issued t ht).2
  have hmem : u ∈ s'.pool :=
    (h.step hstep).mem_of_leads hleads hu
      (UInt64.lt_of_lt_of_le hlt (h.peek_le_of_step hstep))
  have heq : u = t := h.eq_of_id (h.mem_of_step hstep hmem hlt) ht hid
  exact hgone (heq ▸ hmem)

/-- A transfer leaves a pool at most once, by a cancellation or by a removal, and can never be
cancelled after that. -/
theorem departure_is_final {ids : IdCounter} {before after later : Store} {call : Call}
    {t : Transfer} (hrun : Leads ⟨∅, ids⟩ before) (hstep : Step before call after)
    (ht : t ∈ before.pool) (hgone : t ∉ after.pool) (hlater : Leads after later) :
    ((∃ env, call = .cancel env t.id t.sender) ∨ call = .remove t.fee t.id) ∧
      (∀ u ∈ later.pool, u.id ≠ t.id) ∧
      ∀ {L R : Type} [Custody L] [Resolver R] (env : Env) (requester : AccountId)
        (s : State L R), s.store = later → env.context.isZero = false → 1 ≤ t.id →
        requester.isEmpty = false →
        (cancel env t.id requester).runFrom s = (.error (.unknownTransfer t.id), s) := by
  have hsound := (sound_empty ids).leads hrun
  refine ⟨hsound.call_of_departure hstep ht hgone, ?_, ?_⟩
  · intro u hu
    exact hsound.id_ne_of_departure hstep ht hgone hlater hu
  · intro L R _ _ env requester s hs hcontext hid hrequester
    subst hs
    apply cancel_of_absent ⟨hcontext, hid, hrequester⟩
    intro u hu
    exact hsound.id_ne_of_departure hstep ht hgone hlater hu

open Sample in
/-- The sample withdrawal is cancelled, and is then cancelled in vain. -/
theorem departure_is_final_of_sample :
    withdrawal.toTransfer 1 contract contract ∈ pending.pool ∧
      withdrawal.toTransfer 1 contract contract ∉ ((cancel env 1 alice).runFrom pending).2.pool ∧
      (cancel env 1 alice).runFrom ((cancel env 1 alice).runFrom pending).2 =
        (.error (.unknownTransfer 1), ((cancel env 1 alice).runFrom pending).2) := by
  have hin : withdrawal.toTransfer 1 contract contract ∈ pending.pool := by
    rw [Pool.mem_def]
    decide +kernel
  have hout : withdrawal.toTransfer 1 contract contract ∉
      ((cancel env 1 alice).runFrom pending).2.pool := by
    rw [Pool.mem_def]
    decide +kernel
  have hsubmit := Step.submit env withdrawal funded rfl
  have hcancel := Step.cancel env 1 alice pending rfl
  obtain ⟨_, _, hvain⟩ := departure_is_final (.single ⟨_, hsubmit⟩) hcancel hin hout .refl
  exact ⟨hin, hout, hvain env alice _ rfl rfl (by decide) (by decide)⟩

end Store

end WithdrawalPool
