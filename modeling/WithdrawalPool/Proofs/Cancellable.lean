/-
Which pending transfers can be cancelled by their senders.  Where only calls have changed a store,
nothing but a collaborator stands in the way, unless the id is zero.  A counter that stands at zero
hands that id out, and cancellations take no such id.
-/
import WithdrawalPool.Proofs.Integrity
import WithdrawalPool.Proofs.Issuance

namespace WithdrawalPool

/-- The failures that come from the keeper of the coins or from the registry. -/
def PoolError.OfCollaborator : PoolError → Prop
  | .ledger _ => True
  | .registry _ => True
  | _ => False

namespace Store

section

variable {L R : Type} [Custody L] [Resolver R] {env : Env} {s s' : State L R} {first : UInt64}
  {t : Transfer}

/-- What a submission records passes the checks of a cancellation, which asks for an id of its
own. -/
theorem Sound.ofCollaborator_of_cancelEffect (h : s.store.Sound first) (ht : t ∈ s.pool)
    (hid : 1 ≤ t.id) (hcontext : env.context.isZero = false) {e : PoolError}
    (heffect : CancelEffect env t.id t.sender s (.error e) s') : e.OfCollaborator := by
  have hblameless := h.not_blamesPool_of_cancelEffect heffect
  cases heffect with
  | refused hnot => exact absurd ⟨hcontext, hid, (h.inOrder t ht).sender⟩ hnot
  | notFound _ habsent => exact absurd rfl (habsent t ht)
  | senderMissing => exact absurd trivial hblameless
  | @unauthorized found _ hfound _ hsender =>
      obtain ⟨hpending, hsame⟩ := Pool.getById_eq_ok hfound
      have heq : found = t := h.eq_of_id hpending ht hsame
      exact absurd (congrArg Transfer.sender heq) hsender
  | inconsistent => exact absurd trivial hblameless
  | unresolved => exact trivial
  | misfiled => exact absurd trivial hblameless
  | refundRefused => exact trivial

theorem cancel_of_id_eq_zero (hid : t.id = 0) :
    (cancel env t.id t.sender).runFrom s = (.error (.invalidArgument .cancellation), s) := by
  apply runFrom_cancel_of_not_cancelArguments
  rintro ⟨_, hone, _⟩
  rw [hid] at hone
  exact absurd hone (by decide)

end

variable {s : Store} {counter : IdCounter} {ids : List UInt64}

/-- The ids that were handed out are those that the counter has passed. -/
theorem Issues.mem_iff (h : Issues ⟨∅, counter⟩ ids s) {id : UInt64} :
    id ∈ ids ↔ counter.peek ≤ id ∧ id < s.ids.peek := by
  obtain ⟨hids, hpeek⟩ := h.count
  have hmem : id ∈ ids ↔ id.toNat ∈ ids.map UInt64.toNat :=
    (List.mem_map_of_injective fun _ _ => UInt64.toNat_inj.1).symm
  rw [hmem, hids, List.mem_range'_1, UInt64.le_iff_toNat_le, UInt64.lt_iff_toNat_lt, hpeek]

/-- Zero is handed out by a counter that stands there, and to the first submission only. -/
theorem Issues.zero_mem_iff (h : Issues ⟨∅, counter⟩ ids s) :
    0 ∈ ids ↔ counter.peek = 0 ∧ ids ≠ [] := by
  obtain ⟨hids, hpeek⟩ := h.count
  rw [h.mem_iff, UInt64.le_iff_toNat_le, UInt64.lt_iff_toNat_lt, hpeek, ← UInt64.toNat_inj,
    ← List.length_pos_iff]
  simp only [UInt64.toNat_zero]
  omega

/-- Whatever calls led to a store, every pending transfer has an id that was handed out.  Its
sender's cancellation fails at a collaborator only, if the id is not zero, and is always refused if
it is.  Zero is handed out exactly if the counter stood there and a submission succeeded. -/
theorem cancellable_unless_id_is_zero (hrun : Issues ⟨∅, counter⟩ ids s) :
    (0 ∈ ids ↔ counter.peek = 0 ∧ ids ≠ []) ∧ (∀ t ∈ s.pool, t.id ∈ ids) ∧
      ∀ {L R : Type} [Custody L] [Resolver R] (env : Env) (before : State L R),
        before.store = s → env.context.isZero = false → ∀ t ∈ s.pool,
          (1 ≤ t.id → ∀ e, ((cancel env t.id t.sender).runFrom before).1 = .error e →
            e.OfCollaborator) ∧
          (t.id = 0 → (cancel env t.id t.sender).runFrom before =
            (.error (.invalidArgument .cancellation), before)) := by
  have hsound := hrun.sound
  refine ⟨hrun.zero_mem_iff, fun t ht => hrun.mem_iff.2 (hsound.issued t ht), ?_⟩
  rintro L R _ _ env before rfl hcontext t ht
  refine ⟨fun hid e herror => ?_, cancel_of_id_eq_zero⟩
  have heffect := cancelEffect_of_runFrom (Prod.ext herror rfl)
  exact hsound.ofCollaborator_of_cancelEffect ht hid hcontext heffect

open Sample in
/-- The sample withdrawal cannot be cancelled while no vouchers can be minted, and the bank is
behind the failure. -/
theorem cancellable_unless_id_is_zero_of_sample :
    Issues ⟨∅, {}⟩ [1] pending.store ∧ unmintable.store = pending.store ∧
      ((cancel env 1 alice).runFrom unmintable).1 = .error (.ledger (.disabled .mint)) ∧
      (PoolError.ledger (.disabled .mint)).OfCollaborator := by
  have hstart : Issues ⟨∅, {}⟩ [] funded.store := .start
  have hsubmit : (submit env withdrawal).runFrom funded = (.ok 1, pending) := by rfl
  have hrun : Issues ⟨∅, {}⟩ [1] pending.store := hstart.submitted hsubmit
  have hpending : withdrawal.toTransfer 1 contract contract ∈ pending.pool := by
    rw [Pool.mem_def]
    decide +kernel
  have hcancel : ((cancel env 1 alice).runFrom unmintable).1 =
      .error (.ledger (.disabled .mint)) := by rfl
  obtain ⟨_, _, hcancellable⟩ := cancellable_unless_id_is_zero hrun
  obtain ⟨hfails, _⟩ := hcancellable env unmintable rfl rfl _ hpending
  exact ⟨hrun, rfl, hcancel, hfails (by decide) _ hcancel⟩

open Sample in
/-- A counter that stands at zero hands that id out, and then the sender cannot cancel. -/
theorem not_cancellable_from_zero :
    ∃ (s : State Ledger Registry) (t : Transfer),
      Issues ⟨∅, .startingAt 0⟩ [0] s.store ∧ t ∈ s.pool ∧ env.context.isZero = false ∧
        ((cancel env t.id t.sender).runFrom s).1 = .error (.invalidArgument .cancellation) := by
  have hstart : Issues ⟨∅, .startingAt 0⟩ []
    ({ funded with ids := .startingAt 0 } : State Ledger Registry).store := .start
  have hsubmit : (submit env withdrawal).runFrom { funded with ids := .startingAt 0 } =
      (.ok 0, ((submit env withdrawal).runFrom { funded with ids := .startingAt 0 }).2) := by rfl
  refine ⟨_, withdrawal.toTransfer 0 contract contract, hstart.submitted hsubmit, ?_, rfl, rfl⟩
  rw [Pool.mem_def]
  decide +kernel

end Store

end WithdrawalPool
