/-
The check that a withdrawal's destination passes before anything else happens.
-/
import WithdrawalPool.Config

namespace WithdrawalPool

/-- Accepts addresses of the right form, all of them or all but the zero address. -/
structure DestinationPolicy where
  rejectZero : Bool := false
deriving DecidableEq, Repr

namespace DestinationPolicy

def ofConfig (config : Config) : DestinationPolicy := ⟨config.rejectZeroDestination⟩

/-- Judges the text of a destination; a refusal gives its reason in words. -/
def check (policy : DestinationPolicy) (text : String) : Except String Unit :=
  match Address.ofText text with
  | .error e => .error e.message
  | .ok _ =>
    if policy.rejectZero ∧ text = Address.zero.text then
      .error "Destination cannot be the zero address"
    else .ok ()

theorem check_eq_ok_iff {policy : DestinationPolicy} {text : String} :
    policy.check text = .ok () ↔
      ∃ a, Address.ofText text = .ok a ∧ ¬ (policy.rejectZero = true ∧ a = Address.zero) := by
  simp only [check]
  split
  next e h => simp [h]
  next a h =>
    obtain rfl := Address.ofText_eq_ok_iff.1 h
    have hzero : a.text = Address.zero.text ↔ a = Address.zero :=
      ⟨Address.ext, congrArg Address.text⟩
    simp [hzero]

end DestinationPolicy

end WithdrawalPool
