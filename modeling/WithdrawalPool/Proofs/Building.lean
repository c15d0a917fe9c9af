/-
Stores that transfers were also put into directly.  Ids may then be used twice, and a transfer
need not be in order, but every transfer is filed under the contract of its fee.
-/
import WithdrawalPool.Proofs.Store

namespace WithdrawalPool

namespace Store

/-- The stores that come about by calls and by transfers that are put in directly. -/
inductive Built : Store → Prop
  | start (ids : IdCounter) : Built ⟨∅, ids⟩
  | inserted {s : Store} {t : Transfer} {pool : Pool} (hbuilt : Built s)
      (hinsert : s.pool.insert t = .ok pool) : Built { s with pool := pool }
  | called {s s' : Store} {call : Call} (hbuilt : Built s) (hstep : Step s call s') : Built s'

/-- A call leaves the pool alone, adds one transfer to it or takes one out. -/
theorem pool_of_step {s s' : Store} {call : Call} (hstep : Step s call s') :
    s'.pool = s.pool ∨ (∃ t, s.pool.insert t = .ok s'.pool) ∨
      ∃ fee id t, s.pool.remove fee id = .ok (t, s'.pool) := by
  cases hstep with
  | submit env w state hs =>
      subst hs
      have heffect := submit_effect env w state
      generalize (WithdrawalPool.submit env w).runFrom state = outcome at heffect ⊢
      obtain ⟨result, after⟩ := outcome
      cases heffect with
      | refused => exact Or.inl rfl
      | unresolved => exact Or.inl rfl
      | exhausted => exact Or.inl rfl
      | notLocked => exact Or.inl rfl
      | notBurned => exact Or.inl rfl
      | duplicate => exact Or.inl rfl
      | recorded _ _ hinsert => exact Or.inr (Or.inl ⟨_, hinsert⟩)
  | cancel env id requester state hs =>
      subst hs
      have heffect := cancel_effect env id requester state
      generalize (WithdrawalPool.cancel env id requester).runFrom state = outcome at heffect ⊢
      obtain ⟨result, after⟩ := outcome
      cases heffect with
      | refused => exact Or.inl rfl
      | notFound => exact Or.inl rfl
      | senderMissing => exact Or.inl rfl
      | unauthorized => exact Or.inl rfl
      | inconsistent => exact Or.inl rfl
      | unresolved => exact Or.inl rfl
      | misfiled => exact Or.inl rfl
      | refundRefused _ hremove => exact Or.inr (Or.inr ⟨_, _, _, hremove⟩)
      | refunded _ hremove => exact Or.inr (Or.inr ⟨_, _, _, hremove⟩)
  | removed hremove => exact Or.inr (Or.inr ⟨_, _, _, hremove⟩)
  | notRemoved => exact Or.inl rfl

theorem Built.filed {s : Store} (h : Built s) : s.pool.Filed := by
  induction h with
  | start => exact Pool.filed_empty
  | inserted _ hinsert ih => exact ih.insert hinsert
  | called _ hstep ih =>
      rcases pool_of_step hstep with hsame | ⟨t, hinsert⟩ | ⟨fee, id, t, hremove⟩
      · rwa [hsame]
      · exact ih.insert hinsert
      · exact ih.remove hremove

end Store

end WithdrawalPool
