/-
Where pending transfers go.  A submission has its destination checked, and the transfer that it
records goes to the address that passed.  What the checks of all submissions let pass is therefore
all that is ever pending, and the zero address is not pending where every check refuses it.
-/
import WithdrawalPool.Proofs.Addresses
import WithdrawalPool.Proofs.Store

namespace WithdrawalPool

/-- A policy that refuses the zero address accepts every address whose bytes are not all zero. -/
theorem DestinationPolicy.check_refusing_zero_iff {text : String} :
    (DestinationPolicy.mk true).check text = .ok () ↔
      ∃ a, Address.ofText text = .ok a ∧ a.isZero = false := by
  have hzero (a : Address) : ¬ (true = true ∧ a = Address.zero) ↔ a.isZero = false := by
    rw [← Address.isZero_iff, and_iff_right rfl, Bool.not_eq_true]
  rw [check_eq_ok_iff]
  exact exists_congr fun a => and_congr_right fun _ => hzero a

/-- A submission whose check lets no other addresses pass.  Other calls have no destination. -/
def Call.SendsTo (p : Address → Prop) : Call → Prop
  | .submit env _ => ∀ a : Address, env.checkDestination a.text = .ok () → p a
  | .cancel .. => True
  | .remove .. => True

/-- A submission that is checked by the policy of a configuration that refuses the zero address. -/
def Call.RefusesZero : Call → Prop
  | .submit env _ => ∃ config : Config, config.rejectZeroDestination = true ∧
      env.checkDestination = (DestinationPolicy.ofConfig config).check
  | .cancel .. => True
  | .remove .. => True

theorem Call.RefusesZero.sendsTo {call : Call} (h : call.RefusesZero) :
    call.SendsTo fun a => a.isZero = false := by
  cases call with
  | submit env w =>
      obtain ⟨config, hrefuses, hcheck⟩ := h
      intro a ha
      rw [hcheck, DestinationPolicy.ofConfig, hrefuses] at ha
      obtain ⟨b, hb, hnonzero⟩ := DestinationPolicy.check_refusing_zero_iff.1 ha
      rw [Address.ofText_text] at hb
      cases hb
      exact hnonzero
  | cancel => exact trivial
  | remove => exact trivial

/-- The sample environment with a check that refuses the zero address. -/
def Sample.strict : Env := { env with checkDestination := (DestinationPolicy.mk true).check }

namespace Store

/-- Any number of calls, each of them of the kind, lead from one store to the other. -/
def LeadsBy (kind : Call → Prop) : Store → Store → Prop :=
  Relation.ReflTransGen fun before after => ∃ call, kind call ∧ Step before call after

variable {first : UInt64} {s s' : Store} {call : Call} {kind : Call → Prop} {p : Address → Prop}

theorem LeadsBy.leads (h : LeadsBy kind s s') : Leads s s' :=
  Relation.ReflTransGen.mono (fun _ _ ⟨call, _, hstep⟩ => ⟨call, hstep⟩) _ _ h

/-- A call adds no transfer but one to a destination that its check lets pass. -/
theorem Sound.destination_of_step (h : s.Sound first) (hstep : Step s call s')
    (hsends : call.SendsTo p) (hpending : ∀ t ∈ s.pool, p t.destination) :
    ∀ t ∈ s'.pool, p t.destination := by
  intro t ht
  cases h.change_of_step hstep with
  | kept => exact hpending t ht
  | @recorded env w destination contract next haccepted hnext =>
      have hfree := h.find?_peek contract w.fee.amount
      rcases (Pool.mem_place_iff hfree).1 ht with rfl | ht
      · obtain ⟨_, _, hchecked, htext, _⟩ := Withdrawal.check_eq_ok_iff.1 haccepted
        rw [← htext] at hchecked
        exact hsends destination hchecked
      · exact hpending t ht
  | cancelled hremove => exact hpending t ((Pool.mem_remove_iff hremove).2 (Or.inr ht))
  | removed hremove => exact hpending t ((Pool.mem_remove_iff hremove).2 (Or.inr ht))

theorem Sound.destination_of_leadsBy (h : s.Sound first) (hrun : LeadsBy kind s s')
    (hkind : ∀ call, kind call → call.SendsTo p) (hpending : ∀ t ∈ s.pool, p t.destination) :
    ∀ t ∈ s'.pool, p t.destination := by
  induction hrun with
  | refl => exact hpending
  | tail hbefore hlast ih =>
      obtain ⟨call, hcall, hstep⟩ := hlast
      exact (h.leads (LeadsBy.leads hbefore)).destination_of_step hstep (hkind call hcall) ih

/-- The policy that refuses the zero address accepts the addresses whose twenty bytes are not all
zero, however they are spelled.  Where every submission is checked by it, no transfer to twenty zero
bytes is ever pending. -/
theorem zero_is_never_a_destination :
    (∀ text, (DestinationPolicy.mk true).check text = .ok () ↔
      ∃ a, Address.ofText text = .ok a ∧ a.isZero = false) ∧
      (∀ a : Address, a.isZero = true ↔ a.bytes = List.replicate 20 0) ∧
      ∀ ids s, LeadsBy Call.RefusesZero ⟨∅, ids⟩ s →
        ∀ t ∈ s.pool, t.destination.bytes ≠ List.replicate 20 0 := by
  refine ⟨fun text => DestinationPolicy.check_refusing_zero_iff, fun a => Address.isZero_iff_bytes,
    fun ids s hrun t ht hbytes => ?_⟩
  have hnonzero := (sound_empty ids).destination_of_leadsBy hrun
    (fun call hcall => hcall.sendsTo) (fun t ht => absurd ht (Pool.not_mem_empty t)) t ht
  rw [Address.isZero_iff_bytes.2 hbytes] at hnonzero
  contradiction

open Sample in
/-- The sample withdrawal passes the check, and where it is pending it goes to other bytes; the same
withdrawal to the zero address is refused. -/
theorem zero_is_never_a_destination_of_sample :
    ((submit strict withdrawal).runFrom funded).1 = .ok 1 ∧
      (∀ t ∈ ((submit strict withdrawal).runFrom funded).2.pool,
        t.destination.bytes ≠ List.replicate 20 0) ∧
      ((submit strict { withdrawal with destination := Address.zero.text }).runFrom funded).1 =
        .error (.invalidArgument
          (.destination "Destination cannot be the zero address")) := by
  have hrefuses : Call.RefusesZero (.submit strict withdrawal) := ⟨⟨0, none, 100, true⟩, rfl, rfl⟩
  have hrun : LeadsBy Call.RefusesZero funded.store
      ((submit strict withdrawal).runFrom funded).2.store :=
    .single ⟨_, hrefuses, .submit strict withdrawal funded rfl⟩
  refine ⟨by decide +kernel, ?_, by decide +kernel⟩
  exact zero_is_never_a_destination.2.2 _ _ hrun

end Store

end WithdrawalPool
