import ChassisCooling.Control.Registry
import ChassisCooling.Proofs.Calendar

/-! # What requests and evictions leave alone

Hints and the override do not touch each other. An override is set for a percentage and refused for
any other speed, and an eviction answers no question at its own time differently.
-/

namespace ChassisCooling.Control

open Calendar

namespace Registry

variable {r next : Registry} {now : Instant}

theorem addHint_override {request : HintRequest} {hint : Hint}
    (added : r.addHint request now = .ok (hint, next)) : next.override = r.override := by
  obtain ⟨made, -, same⟩ := ok_of_bind added
  cases same
  rfl

/-- A speed that is a percentage becomes the override; any other changes nothing. -/
theorem setOverride_cases {speed : Int} {duration : Span} {reason : String}
    {result : Except Fault Override}
    (answered : r.setOverride speed duration reason now = .ok (result, next)) :
    (0 ≤ speed ∧ speed ≤ 100 ∧ ∃ expires, expiry now duration = .ok expires ∧
      next = { r with override := some ⟨.ofNat speed.toNat, reason, expires, now⟩ }) ∨
    ¬ (0 ≤ speed ∧ speed ≤ 100) ∧ next = r := by
  rw [setOverride] at answered
  split at answered
  · next percentage =>
    obtain ⟨expires, ends, same⟩ := ok_of_bind answered
    cases same
    exact .inl ⟨percentage.1, percentage.2, expires, ends, rfl⟩
  · next refused =>
    cases answered
    exact .inr ⟨refused, rfl⟩

@[simp] theorem evict_activeOverride (r : Registry) (now : Instant) :
    (r.evict now).activeOverride now = r.activeOverride now := by
  simp only [evict, activeOverride, Option.filter_filter, Bool.and_self]

@[simp] theorem evict_hintFloor (r : Registry) (now : Instant) :
    (r.evict now).hintFloor now = r.hintFloor now := by
  simp only [evict, hintFloor, liveHints, List.filter_filter, Bool.and_self]

end Registry

end ChassisCooling.Control
